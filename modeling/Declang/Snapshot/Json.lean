import Declang.Json.Printer
import Declang.Json.Reader
import Declang.Snapshot
namespace Declang.Snapshot

/-- The field of a snapshot's attributes, left out when there are none. -/
def attributesField (attributes : Attributes) : List (String × Json) :=
  if attributes.entries.isEmpty then []
  else [("attributes", .record (attributes.entries.map fun (key, value) => (key, .string value)))]

mutual

/-- The JSON form of a snapshot; children are left out when there are none. -/
def toJson : Snapshot → Json
  | node nodeType label attributes children =>
    .record ([("node_type", .string nodeType), ("label", .string label)]
      ++ attributesField attributes
      ++ (if children.isEmpty then [] else [("children", .array (toJsons children))]))

def toJsons : List Snapshot → List Json
  | [] => []
  | snapshot :: snapshots => toJson snapshot :: toJsons snapshots

end

theorem toJsons_eq_map (snapshots : List Snapshot) : toJsons snapshots = snapshots.map toJson := by
  induction snapshots with
  | nil => rfl
  | cons snapshot snapshots ih => rw [toJsons, ih, List.map_cons]

def toJsonText (layout : Json.Layout) (snapshot : Snapshot) : String :=
  snapshot.toJson.render layout

/-- How deep the objects and arrays of a written snapshot may nest. -/
def maxNesting : Nat := 127

def textOf? : Json → Option String
  | .text (.whole text) => some text
  | _ => none

def entryOf? : Json.Text × Json → Option (String × String)
  | (.whole key, value) => (textOf? value).map (key, ·)
  | (.broken, _) => none

/-- A field by its name, unless that is broken. -/
def fieldOf? : Json.Text × Json → Option (String × Json)
  | (.whole key, value) => some (key, value)
  | (.broken, _) => none

/-- The fields of an object by name; a broken name, and a repeated one of `known`, fail. -/
def fieldsOf? (known : List String) (fields : List (Json.Text × Json)) :
    Option (List (String × Json)) := do
  let named ← fields.mapM fieldOf?
  if (known.all fun key => (named.filter (·.1 == key)).length ≤ 1) then some named else none

/-- The parts of a snapshot that a JSON value writes. -/
structure Parts where
  nodeType : Json
  label : Json
  attributes : Option Json
  children : Option Json

/-- A snapshot is written either as an object or as the array of its fields. -/
def parts? : Json → Option Parts
  | .object fields => do
    let named ← fieldsOf? ["node_type", "label", "attributes", "children"] fields
    let nodeType ← named.lookup "node_type"
    let label ← named.lookup "label"
    some ⟨nodeType, label, named.lookup "attributes", named.lookup "children"⟩
  | .array [nodeType, label] => some ⟨nodeType, label, none, none⟩
  | .array [nodeType, label, attributes] => some ⟨nodeType, label, some attributes, none⟩
  | .array [nodeType, label, attributes, children] =>
    some ⟨nodeType, label, some attributes, some children⟩
  | _ => none

/-- The attributes of a snapshot; their object takes a level. -/
def attributesOf? : Nat → Option Json → Option Attributes
  | _, none => some .empty
  | _ + 1, some (.object fields) => (fields.mapM entryOf?).map Attributes.ofList
  | _, _ => none

mutual

/-- The snapshot that a JSON value writes. Every object and array that is read takes one of the
`depth` levels. -/
def ofJson? : Nat → Json → Option Snapshot
  | 0, _ => none
  | depth + 1, json => do
    let parts ← parts? json
    let nodeType ← textOf? parts.nodeType
    let label ← textOf? parts.label
    let attributes ← attributesOf? depth parts.attributes
    let children ← childrenOf? depth parts.children
    return .node nodeType label attributes children

/-- The children of a snapshot; their array takes a level. -/
def childrenOf? : Nat → Option Json → Option (List Snapshot)
  | _, none => some []
  | depth + 1, some (.array items) => items.mapM (ofJson? depth)
  | _, _ => none

end

/-- The snapshot that a JSON text writes. -/
def ofJsonText? (source : String) : Option Snapshot :=
  (Json.parse? source).bind (ofJson? maxNesting)

end Declang.Snapshot
