import Declang.Number.Binary64
namespace Declang

/-- A value of a configuration. A table has at most one entry for each key. -/
inductive Value where
  | nil
  | bool (value : Bool)
  | int (value : Int)
  | float (value : Binary64)
  | text (value : String)
  | array (items : List Value)
  | table (entries : List (String × Value))

/-- Sets the entry of a key, in place of an earlier one. -/
def putEntry {α : Type} (key : String) (value : α) : List (String × α) → List (String × α)
  | [] => [(key, value)]
  | entry :: entries =>
    if entry.1 = key then (key, value) :: entries else entry :: putEntry key value entries

/-- The lower case of a character, where that is ASCII. The Kelvin sign is the only character
outside ASCII with such a lower case. -/
def lowerKeyChar (c : Char) : Char :=
  if c = '\u212a' then 'k' else c.toLower

/-- A key in lower case. All settings have ASCII names, so that no other letter counts. -/
def lowerKey (key : String) : String :=
  key.map lowerKeyChar

namespace Value

/-- The entries of a table; any other value has none. -/
def entries : Value → List (String × Value)
  | table entries => entries
  | _ => []

/-- The items of an array; any other value has none. -/
def items : Value → List Value
  | array items => items
  | _ => []

mutual

/-- Sets the entry `key` of `target`, which becomes a table if it is none. A table is merged entry
by entry into what is there, any other value replaces it. -/
def merge (key : String) : Value → Value → Value
  | .table incoming, target =>
    let current := (target.entries.lookup (lowerKey key)).getD (.table [])
    .table (putEntry (lowerKey key) (mergeAll incoming current) target.entries)
  | value, target => .table (putEntry (lowerKey key) value target.entries)

/-- Merges entries one after another; keys are compared in lower case. -/
def mergeAll : List (String × Value) → Value → Value
  | [], target => target
  | (key, value) :: incoming, target => mergeAll incoming (merge key value target)

end

end Value

end Declang
