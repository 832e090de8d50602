import Declang.Proofs.Literal
import Declang.Proofs.Settings.Setting
namespace Declang

namespace Settings

theorem addFile_eq_mergeAll {entries : List (String × Value)} {config : Value}
    (h : ∀ entry ∈ entries, Path.parse? (lowerKey entry.1) = some ⟨entry.1, []⟩) :
    addFile config entries = .ok (Value.mergeAll entries config) := by
  induction entries generalizing config with
  | nil => rfl
  | cons entry entries ih =>
    obtain ⟨key, value⟩ := entry
    obtain ⟨hkey, hentries⟩ := List.forall_mem_cons.1 h
    have hset : value.setPath? ⟨key, []⟩ config = some (Value.merge key value config) := rfl
    rw [addFile, hkey, Option.getD_some, hset, Value.mergeAll]
    exact ih hentries

theorem addFile_of_setsSettings {entries : List (String × Value)} (config : Value)
    (h : Value.setsSettings (.table entries)) :
    addFile config entries = .ok (Value.mergeAll entries config) := by
  refine addFile_eq_mergeAll fun entry hentry => ?_
  obtain ⟨part, hpart, -⟩ := (Option.any_eq_true _ _).1 (List.all_eq_true.1 h entry hentry)
  have hentry := List.mem_singleton.1 (mem_of_lookup_eq_some hpart)
  rw [(Prod.ext_iff.1 hentry).1]
  decide +kernel

theorem part_eq_ok {α : Type} {names : List String} {entries : List (String × Value)} {i : Nat}
    {name : String} {value : Value} {convert : Value → Except SettingsError α} {a : α}
    (hname : names[i]? = some name) (hvalue : entries.lookup name = some value)
    (hconvert : convert value = .ok a) :
    Value.part (names.map fun name => (entries.lookup name).map (Step.key name, ·)) i convert =
      .ok (some a) := by
  rw [Value.part, List.getElem?_map, hname, Option.map_some, hvalue, Option.map_some,
    Option.join_some]
  simp only [hconvert]
  rfl

theorem ofTreeviz_eq_ok {entries : List (String × Value)} {width : Nat} {icons : Bool}
    (hwidth : entries.lookup "max_label_width" = some (.int width))
    (hicons : entries.lookup "show_icons" = some (.bool icons)) :
    ofTreeviz (.table entries) = .ok (width, icons) := by
  have hcount : Value.toCount (.int width) = .ok width := by
    rw [Value.toCount, if_pos (Int.natCast_nonneg width), Int.toNat_natCast]
  refine except_bind_eq_ok_iff.2 ⟨_, rfl, ?_⟩
  refine except_bind_eq_ok_iff.2 ⟨_, part_eq_ok rfl hwidth hcount, ?_⟩
  exact except_bind_eq_ok_iff.2 ⟨_, part_eq_ok rfl hicons rfl, rfl⟩

theorem ofJson_eq_ok {entries : List (String × Value)} {pretty : Bool}
    (hpretty : entries.lookup "pretty" = some (.bool pretty)) :
    ofJson (.table entries) = .ok pretty := by
  refine except_bind_eq_ok_iff.2 ⟨_, rfl, ?_⟩
  exact except_bind_eq_ok_iff.2 ⟨_, part_eq_ok rfl hpretty rfl, rfl⟩

theorem ofOutput_eq_ok {entries : List (String × Value)} {format : String} {treeviz json : Value}
    {width : Nat} {icons pretty : Bool} (hformat : entries.lookup "format" = some (.text format))
    (htreeviz : entries.lookup "treeviz" = some treeviz)
    (hjson : entries.lookup "json" = some json)
    (hicons : ofTreeviz treeviz = .ok (width, icons)) (hpretty : ofJson json = .ok pretty) :
    ofOutput (.table entries) = .ok ⟨format, width, icons, pretty⟩ := by
  refine except_bind_eq_ok_iff.2 ⟨_, rfl, ?_⟩
  refine except_bind_eq_ok_iff.2 ⟨_, part_eq_ok rfl hformat rfl, ?_⟩
  refine except_bind_eq_ok_iff.2 ⟨_, part_eq_ok rfl htreeviz hicons, ?_⟩
  exact except_bind_eq_ok_iff.2 ⟨_, part_eq_ok rfl hjson hpretty, rfl⟩

/-- A complete configuration gives settings, and these are what it holds. -/
theorem exists_of_complete {config : Value} (h : config.Complete) :
    ∃ settings, ofValue config = .ok settings ∧
      ∀ setting, config.at? setting.path = some (settings.get setting) := by
  have hget (setting : Setting) :
      ∃ settings : Settings, config.at? setting.path = some (settings.get setting) := by
    obtain ⟨value, hvalue, hadmits⟩ := h setting
    obtain ⟨settings, rfl⟩ := Setting.exists_get_of_admits hadmits
    exact ⟨settings, hvalue⟩
  obtain ⟨⟨format, _, _, _⟩, hformat⟩ := hget .format
  obtain ⟨⟨_, width, _, _⟩, hwidth⟩ := hget .maxLabelWidth
  obtain ⟨⟨_, _, icons, _⟩, hicons⟩ := hget .showIcons
  obtain ⟨⟨_, _, _, pretty⟩, hpretty⟩ := hget .pretty
  refine ⟨⟨format, width, icons, pretty⟩, ?_, ?_⟩
  · obtain ⟨entries, output, rfl, houtput, hformat⟩ := Value.at?_cons_eq_some_iff.1 hformat
    have hinner (keys : List String) :
        Value.at? ("output" :: keys) (.table entries) = Value.at? keys output := by
      rw [Value.at?, Value.entries, houtput, Option.bind_some]
    rw [Setting.path, hinner] at hwidth hicons hpretty
    obtain ⟨parts, text, rfl, htext, ⟨⟩⟩ := Value.at?_cons_eq_some_iff.1 hformat
    obtain ⟨_, treeviz, ⟨⟩, htreeviz, hwidth⟩ := Value.at?_cons_eq_some_iff.1 hwidth
    obtain ⟨_, treeviz', ⟨⟩, htreeviz', hicons⟩ := Value.at?_cons_eq_some_iff.1 hicons
    obtain ⟨_, json, ⟨⟩, hjson, hpretty⟩ := Value.at?_cons_eq_some_iff.1 hpretty
    cases htreeviz.symm.trans htreeviz'
    obtain ⟨outline, count, rfl, hcount, ⟨⟩⟩ := Value.at?_cons_eq_some_iff.1 hwidth
    obtain ⟨_, shown, ⟨⟩, hshown, ⟨⟩⟩ := Value.at?_cons_eq_some_iff.1 hicons
    obtain ⟨_, spaced, rfl, hspaced, ⟨⟩⟩ := Value.at?_cons_eq_some_iff.1 hpretty
    have hsettings := ofOutput_eq_ok htext htreeviz hjson (ofTreeviz_eq_ok hcount hshown)
      (ofJson_eq_ok hspaced)
    refine except_bind_eq_ok_iff.2 ⟨_, rfl, ?_⟩
    exact except_bind_eq_ok_iff.2 ⟨_, part_eq_ok rfl houtput hsettings, rfl⟩
  · intro setting
    cases setting with
    | format => exact hformat
    | maxLabelWidth => exact hwidth
    | showIcons => exact hicons
    | pretty => exact hpretty

end Settings

theorem getLast?_filterMap_cons_or {α β : Type} (f : α → Option β) (a : α) (as : List α)
    (start : Option β) :
    ((a :: as).filterMap f).getLast?.or start = (as.filterMap f).getLast?.or ((f a).or start) := by
  rw [List.filterMap_cons]
  cases f a with
  | none => rw [Option.none_or]
  | some b =>
    rw [Option.some_or, List.getLast?_cons]
    cases (as.filterMap f).getLast? <;> rfl

namespace LoaderCall

def layer? : LoaderCall → Option Layer
  | .layer file => some file
  | .override _ _ => none

def override? : LoaderCall → Option (Path × Value)
  | .layer _ => none
  | .override key value => (Path.parse? key).map (·, value)

/-- Adds a file that sets some settings and nothing else, an optional file that may be missing, or
an override of a setting; each value is of the setting's type. -/
def isProper : LoaderCall → Bool
  | .layer file =>
    match file.entries with
    | .ok entries => Value.setsSettings (.table entries)
    | .error _ => false
  | .override key value =>
    Setting.all.any fun setting => setting.name == key && setting.admits value

/-- What the file of a call sets a setting to. -/
def fileValue? (setting : Setting) : LoaderCall → Option Value
  | .layer file =>
    match file.entries with
    | .ok entries => Value.at? setting.path (.table entries)
    | .error _ => none
  | .override _ _ => none

/-- What a call overrides a setting with. -/
def overrideValue? (setting : Setting) : LoaderCall → Option Value
  | .layer _ => none
  | .override key value => if key = setting.name then some value else none

theorem exists_of_isProper_layer {layer : Layer} (h : (LoaderCall.layer layer).isProper) :
    ∃ entries, layer.entries = .ok entries ∧ Value.setsSettings (.table entries) := by
  rw [isProper] at h
  split at h
  · next entries hentries => exact ⟨entries, hentries, h⟩
  · cases h

theorem isProper_override_iff {key : String} {value : Value} :
    (LoaderCall.override key value).isProper ↔
      ∃ setting : Setting, key = setting.name ∧ setting.admits value := by
  rw [isProper, List.any_eq_true]
  constructor
  · rintro ⟨setting, -, h⟩
    obtain ⟨hname, hadmits⟩ := Bool.and_eq_true_iff.1 h
    exact ⟨setting, (eq_of_beq hname).symm, hadmits⟩
  · rintro ⟨setting, rfl, hadmits⟩
    exact ⟨setting, setting.mem_all, Bool.and_eq_true_iff.2 ⟨beq_self_eq_true _, hadmits⟩⟩

end LoaderCall

theorem Layer.distinct_entries {layer : Layer} {entries : List (String × Value)}
    (h : layer.entries = .ok entries) : (Value.table entries).Distinct := by
  rw [Layer.entries] at h
  split at h
  · split at h
    · cases h
    · cases h
      exact .table List.nodup_nil (List.forall_mem_nil _)
  · split at h
    · cases h
    · next hparse =>
      cases h
      exact Toml.distinct_parse hparse

namespace Loader

theorem foldlM_call {calls : List LoaderCall} (h : ∀ call ∈ calls, call.isProper)
    (loader : Loader) :
    calls.foldlM call loader = .ok ⟨loader.layers ++ calls.filterMap LoaderCall.layer?,
      loader.overrides ++ calls.filterMap LoaderCall.override?⟩ := by
  induction calls generalizing loader with
  | nil =>
    rw [List.filterMap_nil, List.filterMap_nil, List.append_nil, List.append_nil]
    rfl
  | cons first calls ih =>
    obtain ⟨hfirst, hcalls⟩ := List.forall_mem_cons.1 h
    rw [List.foldlM_cons]
    cases first with
    | layer layer =>
      refine (ih hcalls _).trans ?_
      simp [List.filterMap_cons, LoaderCall.layer?, LoaderCall.override?]
    | override key value =>
      obtain ⟨setting, rfl, -⟩ := LoaderCall.isProper_override_iff.1 hfirst
      rw [call, setting.parse?_name]
      refine (ih hcalls _).trans ?_
      simp [List.filterMap_cons, LoaderCall.layer?, LoaderCall.override?, setting.parse?_name]

end Loader

namespace Settings

theorem exists_of_addLayers {calls : List LoaderCall} (h : ∀ call ∈ calls, call.isProper)
    {config : Value} (hconfig : config.Complete) :
    ∃ merged, addLayers config (calls.filterMap LoaderCall.layer?) = .ok merged ∧
      merged.Complete ∧ ∀ setting, merged.at? setting.path =
        (calls.filterMap (LoaderCall.fileValue? setting)).getLast?.or
          (config.at? setting.path) := by
  induction calls generalizing config with
  | nil => exact ⟨config, rfl, hconfig, fun _ => rfl⟩
  | cons first calls ih =>
    obtain ⟨hfirst, hcalls⟩ := List.forall_mem_cons.1 h
    simp only [getLast?_filterMap_cons_or]
    cases first with
    | layer layer =>
      obtain ⟨entries, hentries, hsets⟩ := LoaderCall.exists_of_isProper_layer hfirst
      have hdistinct := Layer.distinct_entries hentries
      obtain ⟨merged, hmerged, hcomplete, hat⟩ := ih hcalls (hconfig.merge hdistinct hsets)
      refine ⟨merged, ?_, hcomplete, fun setting => ?_⟩
      · refine except_bind_eq_ok_iff.2 ⟨entries, hentries, ?_⟩
        exact except_bind_eq_ok_iff.2 ⟨_, addFile_of_setsSettings config hsets, hmerged⟩
      · rw [hat, Value.at?_merge_document hdistinct hsets]
        simp only [LoaderCall.fileValue?, hentries]
    | override key value => exact ih hcalls hconfig

theorem exists_of_addOverrides {calls : List LoaderCall} (h : ∀ call ∈ calls, call.isProper)
    {config : Value} (hconfig : config.Complete) :
    ∃ merged, addOverrides config (calls.filterMap LoaderCall.override?) = .ok merged ∧
      merged.Complete ∧ ∀ setting, merged.at? setting.path =
        (calls.filterMap (LoaderCall.overrideValue? setting)).getLast?.or
          (config.at? setting.path) := by
  induction calls generalizing config with
  | nil => exact ⟨config, rfl, hconfig, fun _ => rfl⟩
  | cons first calls ih =>
    obtain ⟨hfirst, hcalls⟩ := List.forall_mem_cons.1 h
    simp only [getLast?_filterMap_cons_or]
    cases first with
    | layer layer => exact ih hcalls hconfig
    | override key value =>
      obtain ⟨target, rfl, hadmits⟩ := LoaderCall.isProper_override_iff.1 hfirst
      have hdistinct := (Setting.distinct_of_admits hadmits).wrap target.path
      have hsets := Value.setsSettings_wrap hadmits
      obtain ⟨merged, hmerged, hcomplete, hat⟩ := ih hcalls (hconfig.merge hdistinct hsets)
      refine ⟨merged, ?_, hcomplete, fun setting => ?_⟩
      · rw [List.filterMap_cons, LoaderCall.override?, target.parse?_name, Option.map_some]
        simp only [addOverrides, Value.setPath?_keys]
        exact hmerged
      · rw [hat, Value.at?_merge_document hdistinct hsets]
        have hwritten : Value.at? setting.path (.table [("output", Value.wrap target.keys value)]) =
            if target = setting then some value else none := Value.at?_wrap target setting value
        rw [hwritten, LoaderCall.overrideValue?]
        simp only [Setting.name_inj]

end Settings

namespace Loader

/-- Each setting has the value of its last override, else that of the last file that sets it, else
its default, in whatever order the files and the overrides are given. -/
theorem load_eq_last_writer {calls : List LoaderCall} (h : ∀ call ∈ calls, call.isProper) :
    ∃ settings, load calls = .ok settings ∧ ∀ setting : Setting,
      some (settings.get setting) =
        ((calls.filterMap (LoaderCall.overrideValue? setting)).getLast?.or
          (calls.filterMap (LoaderCall.fileValue? setting)).getLast?).or
          (Settings.defaults.at? setting.path) := by
  obtain ⟨layered, hlayered, hcomplete, hfiles⟩ :=
    Settings.exists_of_addLayers h Value.complete_defaults
  obtain ⟨config, hconfig, hcomplete, hoverrides⟩ :=
    Settings.exists_of_addOverrides h hcomplete
  obtain ⟨settings, hsettings, hget⟩ := Settings.exists_of_complete hcomplete
  refine ⟨settings, ?_, fun setting => ?_⟩
  · refine except_bind_eq_ok_iff.2 ⟨_, foldlM_call h new, ?_⟩
    refine except_bind_eq_ok_iff.2 ⟨layered, hlayered, ?_⟩
    exact except_bind_eq_ok_iff.2 ⟨config, hconfig, hsettings⟩
  · rw [← hget, hoverrides, hfiles, Option.or_assoc]

/-- An override before all files, a missing file, and files that each set a part of a table. -/
def mixedCalls : List LoaderCall :=
  [.override "output.format" (.text "ast-json"),
    .layer ⟨true, some "[output]\nformat = \"ast-yaml\"\ntreeviz.max_label_width = 7"⟩,
    .layer ⟨false, none⟩,
    .override "output.format" (.text "tokens-json"),
    .layer ⟨false, some "output.treeviz = \x7b show_icons = false \x7d"⟩]

theorem load_eq_last_writer_mixedCalls :
    (∀ call ∈ mixedCalls, call.isProper) ∧
    load mixedCalls = .ok ⟨"tokens-json", 7, false, true⟩ ∧
    ∀ setting : Setting, some (Settings.get ⟨"tokens-json", 7, false, true⟩ setting) =
      ((mixedCalls.filterMap (LoaderCall.overrideValue? setting)).getLast?.or
        (mixedCalls.filterMap (LoaderCall.fileValue? setting)).getLast?).or
        (Settings.defaults.at? setting.path) := by
  have hproper : ∀ call ∈ mixedCalls, call.isProper := by decide +kernel
  obtain ⟨settings, hload, hget⟩ := load_eq_last_writer hproper
  have hresult : load mixedCalls = .ok ⟨"tokens-json", 7, false, true⟩ := by decide +kernel
  cases hload.symm.trans hresult
  exact ⟨hproper, hresult, hget⟩

end Loader

end Declang
