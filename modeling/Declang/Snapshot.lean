import Declang.Arena.Walk
import Declang.Snapshot.Attributes
namespace Declang

/-- A tree of named nodes with text attributes, the common source of the tree formats. -/
inductive Snapshot where
  | node (nodeType label : String) (attributes : Attributes) (children : List Snapshot)

namespace Snapshot

def nodeType : Snapshot → String
  | node nodeType _ _ _ => nodeType

def label : Snapshot → String
  | node _ label _ _ => label

def attributes : Snapshot → Attributes
  | node _ _ attributes _ => attributes

def children : Snapshot → List Snapshot
  | node _ _ _ children => children

/-- Sets an attribute; an earlier value of its key is lost. -/
def withAttribute (key value : String) : Snapshot → Snapshot
  | node nodeType label attributes children =>
    node nodeType label (attributes.insert key value) children

/-- Sets attributes one after the other. -/
def withAttributes (snapshot : Snapshot) (calls : List (String × String)) : Snapshot :=
  calls.foldl (fun snapshot (key, value) => snapshot.withAttribute key value) snapshot

end Snapshot

/-- The payload of a node as attributes. -/
def NodeKind.attributes : NodeKind → Attributes
  | program | return_ => .empty
  | function f =>
    .ofList [("return_type", f.returnType), ("name", f.name), ("parameters", f.parameterList)]
  | declaration v =>
    .ofList ([("type", v.typeName), ("name", v.name)]
      ++ (v.defaultValue.map ("default", ·)).toList)
  | int value => .ofList [("value", toString value.toInt)]
  | uint value => .ofList [("value", toString value.toNat)]
  | identifier name => .ofList [("name", name)]

mutual

def Tree.snapshot : Tree → Snapshot
  | node kind children => .node kind.typeName kind.label kind.attributes (Tree.snapshots children)

def Tree.snapshots : List Tree → List Snapshot
  | [] => []
  | tree :: trees => tree.snapshot :: Tree.snapshots trees

end

theorem Tree.snapshots_eq_map (trees : List Tree) :
    Tree.snapshots trees = trees.map Tree.snapshot := by
  induction trees with
  | nil => rfl
  | cons tree trees ih => rw [Tree.snapshots, ih, List.map_cons]

end Declang
