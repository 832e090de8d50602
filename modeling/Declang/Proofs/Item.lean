import Mathlib.Data.List.Forall2
import Declang.Token.Literal
import Declang.Proofs.Arena.Preorder
namespace Declang

/-- What a return statement carries. -/
inductive Returned where
  | int (value : Int32)
  | uint (value : UInt32)
  | name (name : String)
  deriving DecidableEq, Repr

def Returned.ofLiteral : Literal → Returned
  | .int value => .int value
  | .uint value => .uint value

inductive Statement where
  | declaration (declared : Variable)
  | return_ (returned : Option Returned)
  deriving DecidableEq, Repr

/-- A declaration at program level. -/
inductive Item where
  | declaration (declared : Variable)
  | function (function : Function) (body : List Statement)
  deriving DecidableEq, Repr

def Returned.kind : Returned → NodeKind
  | int value => .int value
  | uint value => .uint value
  | name text => .identifier text

def Statement.tree : Statement → Tree
  | declaration v => .node (.declaration v) []
  | return_ returned => .node .return_ (returned.map fun r => .node r.kind []).toList

def Item.tree : Item → Tree
  | declaration v => .node (.declaration v) []
  | function f body => .node (.function f) (body.map Statement.tree)

def Tree.program (items : List Item) : Tree :=
  .node .program (items.map Item.tree)

def Returned.ofTree? : Tree → Option Returned
  | .node (.int value) [] => some (.int value)
  | .node (.uint value) [] => some (.uint value)
  | .node (.identifier text) [] => some (.name text)
  | _ => none

def Statement.ofTree? : Tree → Option Statement
  | .node (.declaration v) [] => some (.declaration v)
  | .node .return_ [] => some (.return_ none)
  | .node .return_ [tree] => (Returned.ofTree? tree).map fun r => .return_ (some r)
  | _ => none

def Item.ofTree? : Tree → Option Item
  | .node (.declaration v) [] => some (.declaration v)
  | .node (.function f) trees => (trees.mapM Statement.ofTree?).map (.function f)
  | _ => none

def Tree.items? : Tree → Option (List Item)
  | .node .program trees => trees.mapM Item.ofTree?
  | _ => none

/-- The declarations of a program, read off its tree from the root. -/
def Arena.items? (arena : Arena) : Option (List Item) :=
  (arena.tree? root).bind Tree.items?

theorem mapM_eq_some_iff {α β : Type} {f : α → Option β} {as : List α} {bs : List β} :
    as.mapM f = some bs ↔ List.Forall₂ (fun a b => f a = some b) as bs := by
  induction as generalizing bs with
  | nil =>
    rw [List.mapM_nil, List.forall₂_nil_left_iff]
    exact Option.some_inj.trans eq_comm
  | cons a as ih =>
    rw [List.mapM_cons, List.forall₂_cons_left_iff]
    constructor
    · intro h
      obtain ⟨b, hb, h⟩ := Option.bind_eq_some_iff.1 h
      obtain ⟨later, hlater, h⟩ := Option.bind_eq_some_iff.1 h
      cases h
      exact ⟨b, later, hb, ih.1 hlater, rfl⟩
    · rintro ⟨b, later, hb, hlater, rfl⟩
      rw [hb, ih.2 hlater]
      rfl

theorem mapM_map_eq_some {α β : Type} {f : α → β} {g : β → Option α} {as : List α}
    (h : ∀ a ∈ as, g (f a) = some a) : (as.map f).mapM g = some as := by
  rw [mapM_eq_some_iff, List.forall₂_map_left_iff, List.forall₂_same]
  exact h

theorem Statement.ofTree?_tree (statement : Statement) :
    ofTree? statement.tree = some statement := by
  cases statement with
  | declaration v => rfl
  | return_ returned =>
    cases returned with
    | none => rfl
    | some r => cases r <;> rfl

theorem Item.ofTree?_tree (item : Item) : ofTree? item.tree = some item := by
  cases item with
  | declaration v => rfl
  | function f body =>
    rw [tree, ofTree?, mapM_map_eq_some fun s _ => Statement.ofTree?_tree s]
    rfl

/-- Reading a program off its arena gives back its declarations. -/
theorem Arena.items?_ofTree (items : List Item) :
    (ofTree (.program items)).items? = some items := by
  rw [items?, tree?_ofTree, Option.bind_some, Tree.program, Tree.items?]
  exact mapM_map_eq_some fun item _ => Item.ofTree?_tree item

end Declang
