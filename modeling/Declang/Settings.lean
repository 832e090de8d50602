import Declang.Settings.Path
import Declang.Toml
namespace Declang

/-- What the command line can be told to show. -/
structure Settings where
  format : String
  maxLabelWidth : Nat
  showIcons : Bool
  pretty : Bool
  deriving DecidableEq, Repr

/-- Why layers of configuration give no settings. -/
inductive SettingsError where
  /-- An override names no path. -/
  | badPath
  /-- A required file cannot be read. -/
  | unreadableFile
  /-- A file is no TOML document. -/
  | badFile
  /-- A path names a position that its array cannot have. -/
  | badPosition
  /-- The value at this place has another type. -/
  | badValue (place : List Step)
  /-- A setting is not given. -/
  | incomplete
  deriving DecidableEq, Repr

/-- A place as text: a point stands between two keys. -/
def placeText : List Step → String
  | [] => ""
  | [.key name] => name
  | .key name :: .index position :: steps => name ++ placeText (.index position :: steps)
  | .key name :: .key inner :: steps => name ++ "." ++ placeText (.key inner :: steps)
  | .index position :: steps => "[" ++ toString position ++ "]" ++ placeText steps

namespace SettingsError

/-- The same error seen from one step further out. -/
def within (step : Step) : SettingsError → SettingsError
  | badValue place => badValue (step :: place)
  | e => e

end SettingsError

namespace Value

def trueWords : List String := ["true", "on", "yes"]

def falseWords : List String := ["false", "off", "no"]

/-- Numbers and truth values are written out. -/
def toText : Value → Except SettingsError String
  | text value => .ok value
  | bool value => .ok (if value then "true" else "false")
  | int value => .ok (toString value)
  | float value => .ok value.display
  | _ => .error (.badValue [])

/-- Numbers other than zero are true. -/
def toBool : Value → Except SettingsError Bool
  | bool value => .ok value
  | int value => .ok (value ≠ 0)
  | float value => .ok (!value.isZero)
  | text value =>
    let word := value.toLower
    if word = "1" ∨ trueWords.contains word then .ok true
    else if word = "0" ∨ falseWords.contains word then .ok false
    else .error (.badValue [])
  | _ => .error (.badValue [])

/-- The largest number of 64 bits. -/
def maxCount : Nat := Nat.pow 2 64 - 1

/-- A decimal number of 64 bits, with an optional plus sign. -/
def readCount? (cs : List Char) : Option Nat :=
  let digits := match cs with
    | '+' :: rest => rest
    | cs => cs
  (readDigits? digits).filter (· ≤ maxCount)

def toCount : Value → Except SettingsError Nat
  | int value => if 0 ≤ value then .ok value.toNat else .error (.badValue [])
  | bool value => .ok (if value then 1 else 0)
  | float value => .ok (value.roundWithin maxCount)
  | text value =>
    let word := value.toLower
    if trueWords.contains word then .ok 1
    else if falseWords.contains word then .ok 0
    else
      match readCount? value.toList with
      | none => .error (.badValue [])
      | some count => .ok count
  | _ => .error (.badValue [])

/-- The parts of a record: the entries of these names, or the items of an array in the same
order. -/
def parts (names : List String) : Value → Except SettingsError (List (Option (Step × Value)))
  | table entries => .ok (names.map fun name => (entries.lookup name).map (.key name, ·))
  | array items => .ok (names.mapIdx fun i _ => items[i]?.map (.index i, ·))
  | _ => .error .incomplete

/-- Converts a part that is there. -/
def part {α : Type} (parts : List (Option (Step × Value))) (i : Nat)
    (convert : Value → Except SettingsError α) : Except SettingsError (Option α) :=
  match parts[i]?.join with
  | none => .ok none
  | some (step, value) => ((convert value).map some).mapError (·.within step)

def demand {α : Type} : Option α → Except SettingsError α
  | none => .error .incomplete
  | some a => .ok a

end Value

namespace Settings

def ofTreeviz (value : Value) : Except SettingsError (Nat × Bool) := do
  let parts ← value.parts ["max_label_width", "show_icons"]
  let maxLabelWidth ← Value.part parts 0 Value.toCount
  let showIcons ← Value.part parts 1 Value.toBool
  return (← Value.demand maxLabelWidth, ← Value.demand showIcons)

def ofJson (value : Value) : Except SettingsError Bool := do
  let parts ← value.parts ["pretty"]
  let pretty ← Value.part parts 0 Value.toBool
  Value.demand pretty

def ofOutput (value : Value) : Except SettingsError Settings := do
  let parts ← value.parts ["format", "treeviz", "json"]
  let format ← Value.part parts 0 Value.toText
  let treeviz ← Value.part parts 1 ofTreeviz
  let json ← Value.part parts 2 ofJson
  let format ← Value.demand format
  let (maxLabelWidth, showIcons) ← Value.demand treeviz
  return ⟨format, maxLabelWidth, showIcons, ← Value.demand json⟩

/-- The settings that a configuration holds. -/
def ofValue (value : Value) : Except SettingsError Settings := do
  let parts ← value.parts ["output"]
  Value.demand (← Value.part parts 0 ofOutput)

/-- What holds where no layer says otherwise. -/
def defaults : Value :=
  .table [("output", .table [("format", .text "ast-treeviz"),
    ("treeviz", .table [("max_label_width", .int 30), ("show_icons", .bool true)]),
    ("json", .table [("pretty", .bool true)])])]

/-- Merges the entries of a file. A key that reads as a path in lower case is one. -/
def addFile (config : Value) : List (String × Value) → Except SettingsError Value
  | [] => .ok config
  | (key, value) :: entries => do
    match value.setPath? ((Path.parse? (lowerKey key)).getD ⟨key, []⟩) config with
    | none => throw .badPosition
    | some config => addFile config entries

def addOverrides (config : Value) : List (Path × Value) → Except SettingsError Value
  | [] => .ok config
  | (path, value) :: overrides => do
    match value.setPath? path config with
    | none => throw .badPosition
    | some config => addOverrides config overrides

end Settings

/-- A configuration file with its text, if it can be read. -/
structure Layer where
  required : Bool
  text? : Option String
  deriving DecidableEq, Repr

/-- The entries of a layer. An optional file may be missing. -/
def Layer.entries (layer : Layer) : Except SettingsError (List (String × Value)) :=
  match layer.text? with
  | none => if layer.required then .error .unreadableFile else .ok []
  | some text =>
    match Toml.parse? text with
    | none => .error .badFile
    | some entries => .ok entries

/-- Adds layers in order; one that fails ends the work. -/
def Settings.addLayers (config : Value) : List Layer → Except SettingsError Value
  | [] => .ok config
  | layer :: layers => do
    let entries ← layer.entries
    let config ← addFile config entries
    addLayers config layers

/-- What a loader has been given. -/
structure Loader where
  layers : List Layer
  overrides : List (Path × Value)

/-- A call on a loader. -/
inductive LoaderCall where
  | layer (layer : Layer)
  | override (key : String) (value : Value)

namespace Loader

def new : Loader := ⟨[], []⟩

/-- Makes a call. A key that cannot be read fails at once, a file only later. -/
def call (loader : Loader) : LoaderCall → Except SettingsError Loader
  | .layer layer => .ok { loader with layers := loader.layers ++ [layer] }
  | .override key value =>
    match Path.parse? key with
    | none => .error .badPath
    | some path => .ok { loader with overrides := loader.overrides ++ [(path, value)] }

/-- The settings of the layers in order, with the overrides on top of all of them. -/
def build (loader : Loader) : Except SettingsError Settings := do
  let config ← Settings.addLayers Settings.defaults loader.layers
  let config ← Settings.addOverrides config loader.overrides
  Settings.ofValue config

/-- The settings after some calls. -/
def load (calls : List LoaderCall) : Except SettingsError Settings := do
  let loader ← calls.foldlM call new
  loader.build

end Loader

/-- The settings of layers and overrides. -/
def Settings.load (layers : List Layer) (overrides : List (String × Value)) :
    Except SettingsError Settings :=
  Loader.load (layers.map .layer ++ overrides.map fun (key, value) => .override key value)

end Declang
