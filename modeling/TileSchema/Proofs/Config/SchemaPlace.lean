import Mathlib.Data.List.Basic
import TileSchema.Config.Settings
import TileSchema.Proofs.Results

/-!
# Where the schema comes from

A base URL and a schema directory exclude each other, but they are two settings, and the layers
below the command line are added up setting by setting.  So a layer that names a place by one of the
two does not take back what a lower layer says by the other.  What is known of a run when its
settings have been made is said in `place_eq`: the directory of any layer goes before the URL of any
layer, but for a URL on the command line.

The highest layer that names a place therefore decides, with one exception (`HidesUrl`): a URL in
the environment is passed over when the settings file names a directory.
-/

namespace TileSchema.Config

open Artifact (OutputFormat)

variable {w : Workspace} {args : List String} {env : List (String × String)} {s : Settings}
  {layers : List SettingLayer} {name t : String}

/-! ### The layers of a run -/

/-- The text of a setting, if it has one. -/
def Setting.text? : Setting → Option String
  | .text t => some t
  | _ => none

/-- The text that a layer gives to a setting. -/
def SettingLayer.text? (l : SettingLayer) (name : String) : Option String :=
  (l.lookup name).bind Setting.text?

/-- What a layer says of where the schema comes from. -/
structure PlaceSettings where
  baseUrl : Option String
  schemaDir : Option String
  deriving DecidableEq

/-- Whether a layer says anything of where the schema comes from. -/
def PlaceSettings.isSet (p : PlaceSettings) : Bool := p.baseUrl.isSome || p.schemaDir.isSome

/-- The place that a layer names, if it makes one of the two settings and not the other. -/
def PlaceSettings.named? : PlaceSettings → Option SchemaPlace
  | ⟨some url, none⟩ => some (.url (withSlash url))
  | ⟨none, some path⟩ => some (.directory path)
  | _ => none

/-- What a layer below the command line says of where the schema comes from. -/
def SettingLayer.placeSettings (l : SettingLayer) : PlaceSettings :=
  ⟨l.text? "base_url", l.text? "schema_dir"⟩

/-- The layers of a run above the default settings. -/
structure RunLayers where
  arguments : Arguments
  environment : SettingLayer
  /-- The settings of the settings file, none if there is no such file. -/
  file : SettingLayer

/-- The layer of the settings file, if it can be read. -/
def fileLayer? (w : Workspace) : Option String → Option SettingLayer
  | none => some []
  | some path => SettingLayer.ofFile w path

/-- The layers of a run whose command line is accepted and whose settings file can be read. -/
structure IsLayered (w : Workspace) (args : List String) (env : List (String × String))
    (r : RunLayers) : Prop where
  arguments : Arguments.ofList args env = .ok r.arguments
  environment : r.environment = environmentLayer env
  file : fileLayer? w r.arguments.config = some r.file

namespace RunLayers

variable {r : RunLayers}

/-- The layers below the command line, the highest first. -/
def lower (r : RunLayers) : List SettingLayer := [r.environment, r.file, defaultLayer]

/-- What the layers say of where the schema comes from, the highest first. -/
def places (r : RunLayers) : List PlaceSettings :=
  [⟨r.arguments.baseUrl, r.arguments.schemaDir⟩, r.environment.placeSettings, r.file.placeSettings]

/-- The release that the highest layer names that names one. -/
def tag (r : RunLayers) : String :=
  (r.arguments.tag.or ((r.environment.text? "tag").or (r.file.text? "tag"))).getD "v3.12.2"

/-- The directory that the highest layer below the command line names that names one. -/
def lowerDirectory? (r : RunLayers) : Option String :=
  (r.environment.text? "schema_dir").or (r.file.text? "schema_dir")

/-- The URL that the highest layer below the command line names that names one. -/
def lowerUrl? (r : RunLayers) : Option String :=
  (r.environment.text? "base_url").or (r.file.text? "base_url")

/-- Where the schema comes from, when the run has settings. -/
def place (r : RunLayers) : SchemaPlace :=
  match r.arguments.schemaDir, r.arguments.baseUrl with
  | some path, _ => .directory path
  | none, some url => .url (withSlash url)
  | none, none =>
    match r.lowerDirectory?, r.lowerUrl? with
    | some path, _ => .directory path
    | none, some url => .url (withSlash url)
    | none, none => .url (releaseBase ++ "/" ++ r.tag ++ "/")

/-- A URL in the environment, with nothing on the command line to decide before it, and a directory
in the settings file. -/
def HidesUrl (r : RunLayers) : Prop :=
  r.arguments.baseUrl = none ∧ r.arguments.schemaDir = none ∧
    (r.environment.text? "base_url").isSome = true ∧ r.environment.text? "schema_dir" = none ∧
    (r.file.text? "schema_dir").isSome = true

/-- All settings have values that they can have. -/
structure HaveValues (r : RunLayers) : Prop where
  tag : ∃ t, settingOf r.lower "tag" = some (.text t)
  baseUrl : ∀ x ∈ settingOf r.lower "base_url", x = .absent ∨ x.text?.isSome = true
  schemaDir : ∀ x ∈ settingOf r.lower "schema_dir", x = .absent ∨ x.text?.isSome = true
  output : ∃ t, settingOf r.lower "output" = some (.text t)
  format : ∃ o, settingOf r.lower "format" = some (.text (formatName o)) ∨
    settingOf r.lower "format" = some (.table [formatName o])

end RunLayers

/-! ### Single settings -/

theorem requiredText_eq_ok_iff :
    requiredText layers name = .ok t ↔ settingOf layers name = some (.text t) := by
  unfold requiredText
  split
  · next t' ht =>
    rw [ht, Except.ok.injEq, Option.some.injEq, Setting.text.injEq]
  · next hother => exact iff_of_false (fun h => nomatch h) (hother t)

theorem optionalText_eq_ok_iff {o : Option String} :
    optionalText layers name = .ok o ↔
      (o = none ∧ ∀ x ∈ settingOf layers name, x = .absent) ∨
        ∃ t, o = some t ∧ settingOf layers name = some (.text t) := by
  unfold optionalText
  cases settingOf layers name with
  | none => simp [eq_comm]
  | some x => cases x <;> simp [eq_comm]

theorem exists_optionalText_iff :
    (∃ o, optionalText layers name = .ok o) ↔
      ∀ x ∈ settingOf layers name, x = .absent ∨ x.text?.isSome = true := by
  unfold optionalText
  cases settingOf layers name with
  | none => simp
  | some x => cases x <;> simp [Setting.text?]

theorem format?_eq_some_iff {o : OutputFormat} : format? name = some o ↔ name = formatName o := by
  have hne : formatName .manifest ≠ formatName .code := by decide
  unfold format?
  by_cases hcode : name = formatName .code
  · rw [if_pos hcode, hcode]
    cases o <;> simp [hne.symm]
  · rw [if_neg hcode]
    by_cases hmanifest : name = formatName .manifest
    · rw [if_pos hmanifest, hmanifest]
      cases o <;> simp [hne]
    · rw [if_neg hmanifest]
      cases o <;> simp [hcode, hmanifest]

theorem requiredFormat_eq_ok_iff {o : OutputFormat} :
    requiredFormat layers = .ok o ↔ settingOf layers "format" = some (.text (formatName o)) ∨
      settingOf layers "format" = some (.table [formatName o]) := by
  unfold requiredFormat
  cases settingOf layers "format" with
  | none => simp
  | some x =>
    cases x with
    | text name =>
      simp only [Option.bind_some, Option.some.injEq, Setting.text.injEq, ← format?_eq_some_iff]
      cases format? name <;> simp
    | table names =>
      rcases names with _ | ⟨name, _ | ⟨name', names⟩⟩
      · simp
      · simp only [Option.bind_some, Option.some.injEq, Setting.table.injEq, List.cons.injEq,
          and_true, ← format?_eq_some_iff]
        cases format? name <;> simp
      · simp
    | _ => simp

/-- Settings are made of layers exactly if each of them has a value that it can have. -/
theorem ofLayers_eq_ok_iff :
    Settings.ofLayers layers = .ok s ↔ requiredText layers "tag" = .ok s.tag ∧
      optionalText layers "base_url" = .ok s.baseUrl ∧
      optionalText layers "schema_dir" = .ok s.schemaDir ∧
      requiredText layers "output" = .ok s.output ∧ requiredFormat layers = .ok s.format := by
  unfold Settings.ofLayers
  simp only [bind_eq_ok_iff]
  constructor
  · rintro ⟨tag, htag, url, hurl, path, hpath, output, houtput, format, hformat, hs⟩
    cases hs
    exact ⟨htag, hurl, hpath, houtput, hformat⟩
  · rintro ⟨htag, hurl, hpath, houtput, hformat⟩
    exact ⟨_, htag, _, hurl, _, hpath, _, houtput, _, hformat, rfl⟩

/-! ### Layers added up -/

theorem settingOf_nil (name : String) : settingOf [] name = none := rfl

theorem settingOf_cons (l : SettingLayer) (ls : List SettingLayer) (name : String) :
    settingOf (l :: ls) name = (l.lookup name).or (settingOf ls name) := by
  rw [settingOf, List.findSome?_cons, settingOf]
  cases l.lookup name <;> rfl

/-- Settings depend on what the layers add up to. -/
theorem ofLayers_congr {ls ls' : List SettingLayer}
    (h : ∀ name, settingOf ls name = settingOf ls' name) :
    Settings.ofLayers ls = Settings.ofLayers ls' := by
  simp only [Settings.ofLayers, requiredText, optionalText, requiredFormat, h]

/-- A variable gives its setting a value. -/
theorem variableSetting?_ne_absent {n v : String} {x : String × Setting}
    (h : variableSetting? n v = some x) : x.2 ≠ .absent := by
  have hunder : ∀ n, (settingUnder n (.text v)).2 ≠ .absent := by
    intro n
    unfold settingUnder
    grind
  simp only [variableSetting?] at h
  split at h
  · cases h
    exact hunder _
  · cases h

/-- The environment takes no setting back. -/
theorem lookup_environmentLayer_ne_absent (env : List (String × String)) (name : String) :
    (environmentLayer env).lookup name ≠ some .absent := by
  intro h
  have hmem : (name, Setting.absent) ∈ environmentLayer env := by
    obtain ⟨before, after, heq, -⟩ := List.lookup_eq_some_iff.mp h
    rw [heq]
    simp
  obtain ⟨⟨n, v⟩, -, hv⟩ := List.mem_filterMap.mp hmem
  exact variableSetting?_ne_absent hv rfl

/-- The settings of a run, once its layers are known. -/
theorem resolve_eq {r : RunLayers} (h : IsLayered w args env r) :
    Settings.resolve w args env =
      (Settings.ofLayers r.lower).map fun s => s.withArguments r.arguments := by
  obtain ⟨layers, hlayers, hsame⟩ : ∃ layers, layersOf w r.arguments.config env = .ok layers ∧
      ∀ name, settingOf layers name = settingOf r.lower name := by
    have hfile := h.file
    unfold layersOf RunLayers.lower
    rw [h.environment]
    cases hconfig : r.arguments.config with
    | none =>
      rw [hconfig, fileLayer?, Option.some.injEq] at hfile
      refine ⟨_, rfl, fun name => ?_⟩
      simp [← hfile, settingOf_cons]
    | some path =>
      rw [hconfig, fileLayer?] at hfile
      simp only [hfile]
      exact ⟨_, rfl, fun _ => rfl⟩
  unfold Settings.resolve
  rw [h.arguments, ← ofLayers_congr hsame]
  simp only [Except.mapError, ok_bind, hlayers]
  rfl

/-- Each run with settings has layers. -/
theorem exists_isLayered (h : Settings.resolve w args env = .ok s) :
    ∃ r, IsLayered w args env r := by
  obtain ⟨a, ha, h⟩ := bind_eq_ok_iff.mp h
  obtain ⟨layers, hlayers, -⟩ := bind_eq_ok_iff.mp h
  obtain ⟨file, hfile⟩ : ∃ file, fileLayer? w a.config = some file := by
    unfold layersOf at hlayers
    cases hconfig : a.config with
    | none => exact ⟨[], rfl⟩
    | some path =>
      rw [hconfig] at hlayers
      cases hlayer : SettingLayer.ofFile w path with
      | none =>
        simp only [hlayer] at hlayers
        cases hlayers
      | some layer => exact ⟨layer, hlayer⟩
  exact ⟨⟨a, environmentLayer env, file⟩, mapError_eq_ok_iff.mp ha, rfl, hfile⟩

/-- What the layers of a run say of a setting. -/
theorem settingOf_lower (r : RunLayers) (name : String) :
    settingOf r.lower name = (r.environment.lookup name).or
      ((r.file.lookup name).or (defaultLayer.lookup name)) := by
  simp [RunLayers.lower, settingOf_cons, settingOf_nil]

/-- An optional setting of a run is that of its environment, or else that of its file. -/
theorem optionalText_lower {r : RunLayers} (henv : r.environment = environmentLayer env)
    (hdefault : defaultLayer.lookup name = none) {o : Option String}
    (h : optionalText r.lower name = .ok o) :
    o = (r.environment.text? name).or (r.file.text? name) := by
  have habsent : r.environment.lookup name ≠ some .absent :=
    henv ▸ lookup_environmentLayer_ne_absent env name
  rw [optionalText_eq_ok_iff, settingOf_lower, hdefault, Option.or_none] at h
  unfold SettingLayer.text?
  cases he : r.environment.lookup name with
  | none =>
    rw [he, Option.none_or] at h
    rcases h with ⟨rfl, hfile⟩ | ⟨t, rfl, hfile⟩
    · cases hf : r.file.lookup name with
      | none => rfl
      | some x => rw [hfile x hf]; rfl
    · rw [hfile]; rfl
  | some x =>
    rw [he, Option.some_or] at h
    rcases h with ⟨-, hx⟩ | ⟨t, rfl, hx⟩
    · exact absurd (he.trans (congrArg some (hx x rfl))) habsent
    · rw [hx]; rfl

/-- The release of a run without an argument for it. -/
theorem requiredText_tag {r : RunLayers} (h : requiredText r.lower "tag" = .ok t) :
    t = ((r.environment.text? "tag").or (r.file.text? "tag")).getD "v3.12.2" := by
  have hdefault : defaultLayer.lookup "tag" = some (.text "v3.12.2") := by decide
  rw [requiredText_eq_ok_iff, settingOf_lower, hdefault] at h
  unfold SettingLayer.text?
  cases he : r.environment.lookup "tag" with
  | none =>
    rw [he, Option.none_or] at h
    cases hf : r.file.lookup "tag" with
    | none =>
      rw [hf, Option.none_or, Option.some.injEq, Setting.text.injEq] at h
      exact h.symm
    | some x =>
      rw [hf, Option.some_or, Option.some.injEq] at h
      rw [h]; rfl
  | some x =>
    rw [he, Option.some_or, Option.some.injEq] at h
    rw [h]; rfl

/-! ### The place -/

theorem withSlash_append_slash (url : String) : withSlash (url ++ "/") = url ++ "/" := by
  have hlast : (url ++ "/").toList.getLast? = some '/' := by
    rw [String.toList_append, List.getLast?_append]
    rfl
  rw [withSlash, if_pos hlast]

/-- The place of a run with settings. -/
theorem place_eq {r : RunLayers} (h : IsLayered w args env r)
    (hs : Settings.resolve w args env = .ok s) : s.place = r.place := by
  rw [resolve_eq h, map_eq_ok_iff] at hs
  obtain ⟨lower, hlower, rfl⟩ := hs
  obtain ⟨htag, hurl, hpath, -, -⟩ := ofLayers_eq_ok_iff.mp hlower
  have htag' := requiredText_tag htag
  have hurl' : lower.baseUrl = r.lowerUrl? := optionalText_lower h.environment (by decide) hurl
  have hpath' : lower.schemaDir = r.lowerDirectory? :=
    optionalText_lower h.environment (by decide) hpath
  have hrelease : withSlash (releaseBase ++ "/" ++ r.tag ++ "/") =
      releaseBase ++ "/" ++ r.tag ++ "/" := withSlash_append_slash _
  have htagged : r.arguments.tag.getD lower.tag = r.tag := by
    rw [htag', RunLayers.tag]
    cases r.arguments.tag <;> rfl
  unfold RunLayers.place
  simp only [Settings.place, Settings.withArguments, Settings.fetchBase, htagged, hurl', hpath']
  cases r.arguments.schemaDir with
  | some path => rfl
  | none =>
    cases r.arguments.baseUrl with
    | some url => rfl
    | none =>
      cases r.lowerDirectory? with
      | some path => rfl
      | none =>
        cases r.lowerUrl? with
        | some url => rfl
        | none => exact congrArg SchemaPlace.url hrelease

/-- A run has settings exactly if each setting has a value that it can have. -/
theorem exists_resolve_iff {r : RunLayers} (h : IsLayered w args env r) :
    (∃ s, Settings.resolve w args env = .ok s) ↔ r.HaveValues := by
  rw [resolve_eq h]
  simp only [map_eq_ok_iff]
  constructor
  · rintro ⟨s, lower, hlower, -⟩
    obtain ⟨htag, hurl, hpath, houtput, hformat⟩ := ofLayers_eq_ok_iff.mp hlower
    rw [requiredText_eq_ok_iff] at htag houtput
    exact ⟨⟨_, htag⟩, exists_optionalText_iff.mp ⟨_, hurl⟩,
      exists_optionalText_iff.mp ⟨_, hpath⟩, ⟨_, houtput⟩, ⟨_, requiredFormat_eq_ok_iff.mp hformat⟩⟩
  · rintro ⟨⟨tag, htag⟩, hurl, hpath, ⟨output, houtput⟩, ⟨format, hformat⟩⟩
    obtain ⟨url, hurl⟩ := exists_optionalText_iff.mpr hurl
    obtain ⟨path, hpath⟩ := exists_optionalText_iff.mpr hpath
    exact ⟨_, ⟨tag, url, path, output, format⟩, ofLayers_eq_ok_iff.mpr
      ⟨requiredText_eq_ok_iff.mpr htag, hurl, hpath, requiredText_eq_ok_iff.mpr houtput,
        requiredFormat_eq_ok_iff.mpr hformat⟩, rfl⟩

/-! ### The highest layer that names a place -/

theorem PlaceSettings.isSet_eq_false_iff {p : PlaceSettings} :
    p.isSet = false ↔ p = ⟨none, none⟩ := by
  obtain ⟨url, path⟩ := p
  cases url <;> cases path <;> simp [PlaceSettings.isSet]

theorem PlaceSettings.named?_eq_some_iff {p : PlaceSettings} {place : SchemaPlace} :
    p.named? = some place ↔ (∃ url, p = ⟨some url, none⟩ ∧ place = .url (withSlash url)) ∨
      ∃ path, p = ⟨none, some path⟩ ∧ place = .directory path := by
  obtain ⟨url, path⟩ := p
  cases url <;> cases path <;> simp [PlaceSettings.named?, eq_comm]

namespace RunLayers

variable {r : RunLayers} {p : PlaceSettings} {place : SchemaPlace}

/-- The highest layer that names a place, with nothing in those above it. -/
theorem find?_places_eq_some (h : r.places.find? (·.isSet) = some p) :
    p = ⟨r.arguments.baseUrl, r.arguments.schemaDir⟩ ∨
      (r.arguments.baseUrl = none ∧ r.arguments.schemaDir = none) ∧
        (p = r.environment.placeSettings ∨
          r.environment.placeSettings = ⟨none, none⟩ ∧ p = r.file.placeSettings) := by
  rw [places, List.find?_cons] at h
  split at h
  · exact .inl (Option.some.inj h).symm
  · next hargs =>
    have hnone := PlaceSettings.isSet_eq_false_iff.mp hargs
    rw [PlaceSettings.mk.injEq] at hnone
    refine .inr ⟨hnone, ?_⟩
    rw [List.find?_cons] at h
    split at h
    · exact .inl (Option.some.inj h).symm
    · next henv =>
      refine .inr ⟨PlaceSettings.isSet_eq_false_iff.mp henv, ?_⟩
      exact List.mem_singleton.mp (List.mem_of_find?_eq_some h)

/-- The highest layer that names a place decides, unless a directory hides its URL. -/
theorem place_eq_iff_not_hidesUrl (hp : r.places.find? (·.isSet) = some p)
    (hplace : p.named? = some place) : r.place = place ↔ ¬ r.HidesUrl := by
  rw [PlaceSettings.named?_eq_some_iff] at hplace
  rcases find?_places_eq_some hp with hargs | ⟨⟨hurl, hpath⟩, henv | ⟨hnone, hfile⟩⟩
  · rcases hplace with ⟨u, rfl, rfl⟩ | ⟨d, rfl, rfl⟩
    all_goals
      obtain ⟨hurl, hpath⟩ := PlaceSettings.mk.inj hargs
      simp [RunLayers.place, HidesUrl, ← hurl, ← hpath]
  · rcases hplace with ⟨u, rfl, rfl⟩ | ⟨d, rfl, rfl⟩
    · obtain ⟨heu, hed⟩ := PlaceSettings.mk.inj henv
      -- the only case in which a lower layer can decide
      cases hfd : r.file.text? "schema_dir" <;>
        simp [RunLayers.place, HidesUrl, lowerDirectory?, lowerUrl?, hurl, hpath, ← heu, ← hed, hfd]
    · obtain ⟨heu, hed⟩ := PlaceSettings.mk.inj henv
      simp [RunLayers.place, HidesUrl, lowerDirectory?, hurl, hpath, ← hed]
  · obtain ⟨heu, hed⟩ := PlaceSettings.mk.inj hnone
    rcases hplace with ⟨u, rfl, rfl⟩ | ⟨d, rfl, rfl⟩
    all_goals
      obtain ⟨hfu, hfd⟩ := PlaceSettings.mk.inj hfile
      simp [RunLayers.place, HidesUrl, lowerDirectory?, lowerUrl?, hurl, hpath, heu, hed, ← hfu,
        ← hfd]

/-- With no place named, the schema comes from its release. -/
theorem place_of_none (h : r.places.find? (·.isSet) = none) :
    r.place = .url (releaseBase ++ "/" ++ r.tag ++ "/") := by
  have hnone : ∀ p ∈ r.places, p = ⟨none, none⟩ := fun p hp =>
    PlaceSettings.isSet_eq_false_iff.mp (Bool.eq_false_iff.mpr (List.find?_eq_none.mp h p hp))
  simp only [places, List.forall_mem_cons, SettingLayer.placeSettings, PlaceSettings.mk.injEq]
    at hnone
  obtain ⟨⟨hurl, hpath⟩, ⟨heu, hed⟩, ⟨hfu, hfd⟩, -⟩ := hnone
  simp [RunLayers.place, lowerDirectory?, lowerUrl?, hurl, hpath, heu, hed, hfu, hfd]

/-- A hidden URL gives way to the directory of the settings file. -/
theorem place_of_hidesUrl (h : r.HidesUrl) :
    ∃ path, r.file.text? "schema_dir" = some path ∧ r.place = .directory path := by
  obtain ⟨hurl, hpath, -, hed, hfd⟩ := h
  obtain ⟨path, hfd⟩ := Option.isSome_iff_exists.mp hfd
  refine ⟨path, hfd, ?_⟩
  simp [RunLayers.place, lowerDirectory?, hurl, hpath, hed, hfd]

end RunLayers

/-- Each run with proper values has settings.  Its schema comes from the place that its highest
layer with a place names by one of the two settings, except for a URL in the environment over a
directory in the settings file; this is passed over in favour of the directory.  With no place
named, the schema comes from the release that the highest layer with a release names. -/
theorem schema_place_of_highest_layer_iff {r : RunLayers} (h : IsLayered w args env r) :
    ((∃ s, Settings.resolve w args env = .ok s) ↔ r.HaveValues) ∧
      ∀ s, Settings.resolve w args env = .ok s →
        (∀ p place, r.places.find? (·.isSet) = some p → p.named? = some place →
          (s.place = place ↔ ¬ r.HidesUrl)) ∧
        (r.places.find? (·.isSet) = none →
          s.place = .url (releaseBase ++ "/" ++ r.tag ++ "/")) ∧
        (r.HidesUrl →
          ∃ path, r.file.text? "schema_dir" = some path ∧ s.place = .directory path) := by
  refine ⟨exists_resolve_iff h, fun s hs => ?_⟩
  rw [place_eq h hs]
  exact ⟨fun _ _ => RunLayers.place_eq_iff_not_hidesUrl, RunLayers.place_of_none,
    RunLayers.place_of_hidesUrl⟩

/-- A workspace with a settings file. -/
def settingsWorkspace (text : String) : Workspace :=
  { Workspace.fresh with
    tree := .directory [("work", .directory [("c.yaml", .file text)])] }

/-- A directory in the environment goes before a URL in the settings file, and a release on the
command line before one in the environment. -/
theorem schema_place_of_environment_and_release :
    (∃ s, Settings.resolve (settingsWorkspace "base_url: http://localhost/\n")
        ["--config", "c.yaml"] [("TILEGEN_SCHEMA_DIR", "checkout")] = .ok s ∧
        s.place = .directory "checkout") ∧
      ∃ s, Settings.resolve .fresh ["-t", "v3.14"] [("TILEGEN_TAG", "v3.13")] = .ok s ∧
        s.place = .url (releaseBase ++ "/v3.14/") := by
  constructor
  · have h : IsLayered (settingsWorkspace "base_url: http://localhost/\n") ["--config", "c.yaml"]
        [("TILEGEN_SCHEMA_DIR", "checkout")]
        ⟨{ config := some "c.yaml" }, [("schema_dir", .text "checkout")],
          [("base_url", .text "http://localhost/")]⟩ :=
      ⟨by decide, by decide +kernel, by decide +kernel⟩
    obtain ⟨hsettings, hplace⟩ := schema_place_of_highest_layer_iff h
    obtain ⟨s, hs⟩ := hsettings.mpr
      ⟨⟨_, rfl⟩, by decide, by decide +kernel, ⟨_, rfl⟩, ⟨.code, .inl rfl⟩⟩
    exact ⟨s, hs, ((hplace s hs).1 _ _ rfl rfl).mpr fun hhides => nomatch hhides.2.2.1⟩
  · have h : IsLayered .fresh ["-t", "v3.14"] [("TILEGEN_TAG", "v3.13")]
        ⟨{ tag := some "v3.14" }, [("tag", .text "v3.13")], []⟩ :=
      ⟨by decide, by decide +kernel, rfl⟩
    obtain ⟨hsettings, hplace⟩ := schema_place_of_highest_layer_iff h
    obtain ⟨s, hs⟩ := hsettings.mpr
      ⟨⟨_, rfl⟩, by decide, by decide +kernel, ⟨_, rfl⟩, ⟨.code, .inl rfl⟩⟩
    exact ⟨s, hs, (hplace s hs).2.1 rfl⟩

/-- A URL in the environment is the place that the highest layer names, and the schema comes from
the directory of the settings file. -/
theorem not_schema_place_of_highest_layer :
    ¬ ∀ (w : Workspace) (args : List String) (env : List (String × String)) (r : RunLayers)
        (s : Settings) (p : PlaceSettings) (place : SchemaPlace),
        IsLayered w args env r → Settings.resolve w args env = .ok s →
          r.places.find? (·.isSet) = some p → p.named? = some place → s.place = place := by
  intro h
  have hplace := h (settingsWorkspace "schema_dir: checkout\n") ["--config", "c.yaml"]
    [("TILEGEN_BASE_URL", "http://localhost/")]
    ⟨{ config := some "c.yaml" }, [("base_url", .text "http://localhost/")],
      [("schema_dir", .text "checkout")]⟩
    ⟨"v3.12.2", some "http://localhost/", some "checkout", "generated", .code⟩
    ⟨some "http://localhost/", none⟩ (.url "http://localhost/")
    ⟨by decide, by decide +kernel, by decide +kernel⟩ (by decide +kernel) rfl
    (by decide)
  cases hplace

end TileSchema.Config
