import Declang.Proofs.Settings.Merge
import Declang.Proofs.Toml.Distinct
namespace Declang

/-- What can be set. -/
inductive Setting where
  | format
  | maxLabelWidth
  | showIcons
  | pretty
  deriving DecidableEq, Repr

def Settings.get (settings : Settings) : Setting → Value
  | .format => .text settings.format
  | .maxLabelWidth => .int settings.maxLabelWidth
  | .showIcons => .bool settings.showIcons
  | .pretty => .bool settings.pretty

namespace Setting

def all : List Setting := [format, maxLabelWidth, showIcons, pretty]

theorem mem_all (setting : Setting) : setting ∈ all := by
  cases setting <;> decide

/-- The keys of a setting in the table of all settings. -/
def keys : Setting → List String
  | format => ["format"]
  | maxLabelWidth => ["treeviz", "max_label_width"]
  | showIcons => ["treeviz", "show_icons"]
  | pretty => ["json", "pretty"]

/-- The keys of a setting in a configuration. -/
def path (setting : Setting) : List String :=
  "output" :: setting.keys

/-- The name of a setting in an override. -/
def name (setting : Setting) : String :=
  ".".intercalate setting.path

theorem parse?_name (setting : Setting) :
    Path.parse? setting.name = some ⟨"output", setting.keys.map .key⟩ := by
  cases setting <;> decide +kernel

theorem name_inj {setting other : Setting} : setting.name = other.name ↔ setting = other := by
  cases setting <;> cases other <;> decide +kernel

/-- A value of the setting's type. -/
def admits : Setting → Value → Bool
  | format, .text _ => true
  | maxLabelWidth, .int width => 0 ≤ width ∧ width ≤ Value.maxCount
  | showIcons, .bool _ | pretty, .bool _ => true
  | _, _ => false

theorem exists_get_of_admits {setting : Setting} {value : Value} (h : setting.admits value) :
    ∃ settings : Settings, value = settings.get setting := by
  cases setting with
  | format =>
    cases value with
    | text text => exact ⟨⟨text, 0, false, false⟩, rfl⟩
    | _ => cases h
  | maxLabelWidth =>
    cases value with
    | int width =>
      obtain ⟨n, rfl⟩ := Int.eq_ofNat_of_zero_le (of_decide_eq_true h).1
      exact ⟨⟨"", n, false, false⟩, rfl⟩
    | _ => cases h
  | showIcons =>
    cases value with
    | bool icons => exact ⟨⟨"", 0, icons, false⟩, rfl⟩
    | _ => cases h
  | pretty =>
    cases value with
    | bool pretty => exact ⟨⟨"", 0, false, pretty⟩, rfl⟩
    | _ => cases h

theorem flat_of_admits {setting : Setting} {value : Value} (h : setting.admits value) :
    value.Flat := by
  obtain ⟨settings, rfl⟩ := exists_get_of_admits h
  intro entries
  cases setting <;> exact nofun

theorem distinct_of_admits {setting : Setting} {value : Value} (h : setting.admits value) :
    value.Distinct := by
  obtain ⟨settings, rfl⟩ := exists_get_of_admits h
  cases setting <;> constructor

end Setting

namespace Value

/-- A table of some of these parts, and of nothing else. -/
def hasOnly (parts : List (String × (Value → Bool))) : Value → Bool
  | table entries => entries.all fun (key, value) => (parts.lookup key).any (· value)
  | _ => false

/-- A table that sets some settings to values of their types, and nothing else. -/
def setsSettings : Value → Bool :=
  hasOnly [("output", hasOnly [("format", Setting.format.admits),
    ("treeviz", hasOnly [("max_label_width", Setting.maxLabelWidth.admits),
      ("show_icons", Setting.showIcons.admits)]),
    ("json", hasOnly [("pretty", Setting.pretty.admits)])])]

theorem fits_of_hasOnly {parts : List (String × (Value → Bool))}
    (hlower : ∀ part ∈ parts, lowerKey part.1 = part.1) {holds : Value → Prop} {key : String}
    {keys : List String} {part : Value → Bool} (hpart : parts.lookup key = some part)
    (hinner : ∀ inner : Value, inner.Distinct → part inner → Fits holds keys inner)
    (value : Value) (hdistinct : value.Distinct) (h : hasOnly parts value) :
    Fits holds (key :: keys) value := by
  cases hdistinct with
  | table hnodup hentries =>
    rw [hasOnly, List.all_eq_true] at h
    refine ⟨_, rfl, ⟨hnodup, fun entry hentry => ?_⟩, fun inner hlookup => ?_⟩
    · obtain ⟨part, hpart, -⟩ := (Option.any_eq_true _ _).1 (h entry hentry)
      exact hlower _ (mem_of_lookup_eq_some hpart)
    · have hentry := mem_of_lookup_eq_some hlookup
      have hholds := h _ hentry
      simp only [hpart, Option.any_some] at hholds
      exact hinner inner (hentries _ hentry) hholds
  | _ => cases h

theorem fits_of_setsSettings {value : Value} (hdistinct : value.Distinct)
    (h : setsSettings value) (setting : Setting) :
    Fits (setting.admits ·) setting.path value := by
  refine fits_of_hasOnly (by decide +kernel) rfl ?_ value hdistinct h
  cases setting with
  | format =>
    refine fits_of_hasOnly (by decide +kernel) rfl ?_
    exact fun _ _ h => h
  | maxLabelWidth | showIcons | pretty =>
    refine fits_of_hasOnly (by decide +kernel) rfl ?_
    refine fits_of_hasOnly (by decide +kernel) rfl ?_
    exact fun _ _ h => h

theorem Distinct.wrap {value : Value} (h : value.Distinct) (keys : List String) :
    (wrap keys value).Distinct := by
  induction keys with
  | nil => exact h
  | cons key keys ih => exact .table (List.nodup_singleton key) (List.forall_mem_singleton.2 ih)

theorem hasOnly_singleton {parts : List (String × (Value → Bool))} {key : String}
    {part : Value → Bool} (hpart : parts.lookup key = some part) {value : Value}
    (h : part value) : hasOnly parts (.table [(key, value)]) := by
  rw [hasOnly, List.all_cons, List.all_nil, Bool.and_true]
  exact (Option.any_eq_true _ _).2 ⟨part, hpart, h⟩

theorem setsSettings_wrap {setting : Setting} {value : Value} (h : setting.admits value) :
    setsSettings (wrap setting.path value) := by
  cases setting with
  | format => exact hasOnly_singleton rfl (hasOnly_singleton rfl h)
  | maxLabelWidth | showIcons | pretty =>
    exact hasOnly_singleton rfl (hasOnly_singleton rfl (hasOnly_singleton rfl h))

theorem at?_wrap (setting other : Setting) (value : Value) :
    at? other.path (wrap setting.path value) = if setting = other then some value else none := by
  cases setting <;> cases other <;> rfl

/-- A configuration in which each setting has a value of its type. -/
def Complete (config : Value) : Prop :=
  ∀ setting : Setting, ∃ value, config.at? setting.path = some value ∧ setting.admits value

theorem complete_defaults : Complete Settings.defaults := by
  intro setting
  cases setting <;> exact ⟨_, rfl, rfl⟩

/-- A document that sets some settings leaves the others as they are. -/
theorem at?_merge_document {document : List (String × Value)}
    (hdistinct : (Value.table document).Distinct) (h : setsSettings (.table document))
    (config : Value) (setting : Setting) :
    at? setting.path (mergeAll document config) =
      (at? setting.path (.table document)).or (at? setting.path config) :=
  at?_mergeAll (fun _ => Setting.flat_of_admits) (fits_of_setsSettings hdistinct h setting) config

theorem Complete.merge {config : Value} (hconfig : config.Complete)
    {document : List (String × Value)} (hdistinct : (Value.table document).Distinct)
    (h : setsSettings (.table document)) : Complete (mergeAll document config) := by
  intro setting
  rw [at?_merge_document hdistinct h]
  cases hfound : at? setting.path (.table document) with
  | none => exact hconfig setting
  | some value => exact ⟨value, rfl, (fits_of_setsSettings hdistinct h setting).at? hfound⟩

end Value

end Declang
