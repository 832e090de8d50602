import Declang.Settings.Value
import Declang.Toml.Datetime
namespace Declang.Toml

/-- How a table came to be: under its own header, as the parent of a longer header, or as the parent
in a dotted key. -/
inductive Origin where
  | header
  | parent
  | dotted
  deriving DecidableEq, Repr

mutual

/-- What a key of a table stands for while a document is put together. -/
inductive Item where
  | scalar (value : Value)
  /-- A date, a time or both. -/
  | moment (text : String)
  | array (items : List Item)
  /-- A table in braces, to which nothing can be added. -/
  | inline (table : Table)
  | table (table : Table)
  /-- An array of tables, each of which has a header. -/
  | tables (elements : List Table)

inductive Table where
  | mk (origin : Origin) (entries : List (String × Item))

end

/-- A key with the keys of the tables around it. -/
structure KeyPath where
  parents : List String
  name : String
  deriving DecidableEq, Repr

namespace Table

def empty (origin : Origin) : Table := .mk origin []

def origin : Table → Origin
  | mk origin _ => origin

def entries : Table → List (String × Item)
  | mk _ entries => entries

def get? (table : Table) (key : String) : Option Item :=
  table.entries.lookup key

def put (table : Table) (key : String) (item : Item) : Table :=
  .mk table.origin (putEntry key item table.entries)

/-- Sets an entry as the last one. -/
def putLast (table : Table) (key : String) (item : Item) : Table :=
  .mk table.origin (table.entries.filter (·.1 ≠ key) ++ [(key, item)])

/-- Changes the table at the end of a path. Tables on the way are made as `origin` says, the last
element stands for an array of tables, and a dotted key cannot enter a table with a header. -/
def modifyAt? (origin : Origin) (change : Table → Option Table) :
    List String → Table → Option Table
  | [], table => change table
  | key :: keys, table => do
    let item ← match table.get? key with
      | none => (modifyAt? origin change keys (.empty origin)).map Item.table
      | some (.table inner) =>
        if origin = .dotted ∧ inner.origin = .header then none
        else (modifyAt? origin change keys inner).map Item.table
      | some (.tables elements) => do
        let last ← elements.getLast?
        let changed ← modifyAt? origin change keys last
        some (.tables (elements.dropLast ++ [changed]))
      | some _ => none
    return table.put key item

/-- Adds a key that may be dotted. Its table is one made by dotted keys exactly if it has parents,
and has no such key yet. -/
def insert? (table : Table) (path : KeyPath) (item : Item) : Option Table :=
  let add (inner : Table) : Option Table :=
    if decide (inner.origin = .dotted) = path.parents.isEmpty then none
    else
      match inner.get? path.name with
      | some _ => none
      | none => some (inner.put path.name item)
  table.modifyAt? .dotted add path.parents

/-- Adds keys in order. -/
def insertAll? (table : Table) (entries : List (KeyPath × Item)) : Option Table :=
  entries.foldlM (fun table (path, item) => table.insert? path item) table

end Table

/-- The keys under a header; an array header adds a table to an array. -/
structure Section where
  path : KeyPath
  isArray : Bool
  entries : List (KeyPath × Item)

/-- Adds a section to a document. A table has one header at most, and its header gives it its
place. -/
def Table.addSection? (document : Table) (s : Section) : Option Table :=
  let add (parent : Table) : Option Table :=
    if s.isArray then do
      let elements ← match parent.get? s.path.name with
        | none => some []
        | some (.tables elements) => some elements
        | some _ => none
      let element ← (Table.empty .header).insertAll? s.entries
      return parent.put s.path.name (.tables (elements ++ [element]))
    else do
      let entries ← match parent.get? s.path.name with
        | none => some []
        | some (.table (.mk .parent entries)) => some entries
        | some _ => none
      let table ← (Table.mk .header entries).insertAll? s.entries
      return parent.putLast s.path.name (.table table)
  document.modifyAt? .parent add s.path.parents

/-- The key that marks a table as a written moment. -/
def momentKey : String := "$__toml_private_datetime"

mutual

/-- The value of an item. A table whose first key is `momentKey` stands for the moment in its
string. -/
def Item.toValue? : Item → Option Value
  | .scalar value => some value
  | .moment text => some (.text text)
  | .array items => (Item.toValues? items).map .array
  | .inline table => table.toValue?
  | .table table => table.toValue?
  | .tables elements => (Table.toValues? elements).map .array

def Table.toValue? : Table → Option Value
  | .mk _ ((key, item) :: entries) =>
    if key = momentKey then
      match item with
      | .scalar (.text text) => (momentOfText? text).map .text
      | _ => none
    else do
      let value ← item.toValue?
      return .table ((key, value) :: (← Table.toEntries? entries))
  | .mk _ [] => some (.table [])

def Item.toValues? : List Item → Option (List Value)
  | [] => some []
  | item :: items => do return (← item.toValue?) :: (← Item.toValues? items)

def Table.toValues? : List Table → Option (List Value)
  | [] => some []
  | table :: tables => do return (← table.toValue?) :: (← Table.toValues? tables)

def Table.toEntries? : List (String × Item) → Option (List (String × Value))
  | [] => some []
  | (key, item) :: entries => do
    return (key, ← item.toValue?) :: (← Table.toEntries? entries)

end

end Declang.Toml
