import TileSchema.Generate
import TileSchema.Proofs.Schema.Needs
import TileSchema.Proofs.Workspace.Reading
import TileSchema.Proofs.Workspace.Repetition

/-!
# Generating again

A run reads the documents of a schema and replaces its output.  If it is repeated, it reads what the
first run has left: the same documents, if no path of one of them enters the place of the output.
Then it renders the same files, and the output can be replaced by them (`repeats_of_apart`).

If the path of a document does enter that place, the first run has put its output there, and the
document is gone with the old one.  Then the second run fails
(`generation_repeats_iff_documents_apart`).
-/

namespace TileSchema

open Artifact (OutputFormat RenderedFile)
open Workspace (Action Location SameBut follow)

variable {w v : Workspace} {directory output : String} {format : OutputFormat}
  {files : List RenderedFile} {n : Nat} {here : Location}

/-! ### Rendering -/

/-- The files depend on the result of the crawl alone. -/
theorem renderSchema_congr {source source' : Source} {label : String}
    (h : (crawl source' rootReference).result = (crawl source rootReference).result) :
    (renderSchema source' label format).result = (renderSchema source label format).result := by
  simp only [renderSchema, Traced.result_bind, Traced.mapError, h]

/-- Files are rendered from a schema that was crawled. -/
theorem exists_crawl_of_renderSchema {source : Source} {label : String}
    (h : (renderSchema source label format).result = .ok files) :
    ∃ schema, (crawl source rootReference).result = .ok schema := by
  rw [renderSchema, Traced.result_bind, bind_eq_ok_iff] at h
  obtain ⟨schema, hschema, -⟩ := h
  exact ⟨schema, mapError_eq_ok_iff.mp hschema⟩

/-- Rendered files have names that can stand in a path. -/
theorem isPlain_of_mem_renderSchema {source : Source} {label : String}
    (h : (renderSchema source label format).result = .ok files) :
    ∀ f ∈ files, Workspace.Path.isEntryName f.name = true ∧ '\x00' ∉ f.name.toList := by
  simp only [renderSchema, Traced.result_bind, bind_eq_ok_iff] at h
  obtain ⟨schema, -, artifacts, -, hrender⟩ := h
  have hrender := mapError_eq_ok_iff.mp hrender
  cases format with
  | code =>
    simp only [Artifact.render, Artifact.renderCode, Traced.result_bind, bind_eq_ok_iff] at hrender
    obtain ⟨layers, -, rows, -, hfiles⟩ := hrender
    obtain rfl := Except.ok.inj hfiles
    simp only [List.forall_mem_cons, List.not_mem_nil, false_imp_iff, implies_true, and_true]
    decide
  | manifest =>
    obtain rfl := Except.ok.inj hrender
    simp only [Artifact.renderManifest, List.forall_mem_cons, List.not_mem_nil, false_imp_iff,
      implies_true, and_true]
    decide

/-! ### Runs -/

namespace Workspace.Action

variable {ε α β : Type}

/-- The workspace after an action, and its result. -/
def outcome (a : Action ε α) (w : Workspace) : Workspace × Except ε α := ((a w).1, (a w).2.result)

theorem outcome_eq_iff {a : Action ε α} {w v : Workspace} {r : Except ε α} :
    a.outcome w = (v, r) ↔ (a w).1 = v ∧ (a w).2.result = r := Prod.mk_inj

theorem outcome_bind (a : Action ε α) (f : α → Action ε β) (w : Workspace) :
    (a >>= f).outcome w =
      match a.outcome w with
      | (v, .ok x) => (f x).outcome v
      | (v, .error e) => (v, .error e) := by
  change ((andThen a f w).1, (andThen a f w).2.result) = _
  rcases ha : a w with ⟨v, ⟨events, result⟩⟩
  cases result <;> simp only [andThen, outcome, ha]

theorem outcome_mapError {δ : Type} (f : ε → δ) (a : Action ε α) (w : Workspace) :
    (mapError f a).outcome w = ((a.outcome w).1, (a.outcome w).2.mapError f) := rfl

end Workspace.Action

/-- A run renders the files and replaces the output by them. -/
theorem outcome_generate (directory output : String) (format : OutputFormat) (w : Workspace) :
    (generate directory output format).outcome w =
      match (renderSchema (directorySource w directory) directory format).result with
      | .error e => (w, .error e)
      | .ok files =>
        match (Workspace.replaceOutput .willing output files).outcome w with
        | (v, .ok ()) => (v, .ok files.length)
        | (v, .error e) => (v, .error (.output e)) := by
  have hlook : (Action.look fun w => renderSchema (directorySource w directory) directory format).outcome w
      = (w, (renderSchema (directorySource w directory) directory format).result) := rfl
  rw [generate, Action.outcome_bind]
  change (Action.outcome (_ >>= _) w) = _
  rw [Action.outcome_bind, hlook]
  cases (renderSchema (directorySource w directory) directory format).result with
  | error e => rfl
  | ok files =>
    dsimp only
    rw [Action.outcome_bind, Action.outcome_mapError]
    obtain ⟨v, result⟩ := (Workspace.replaceOutput .willing output files).outcome w
    cases result <;> rfl

/-- What a successful run has done. -/
theorem exists_render_of_outcome_generate
    (h : (generate directory output format).outcome w = (v, .ok n)) :
    ∃ files, (renderSchema (directorySource w directory) directory format).result = .ok files ∧
      (Workspace.replaceOutput .willing output files).outcome w = (v, .ok ()) ∧
      files.length = n := by
  rw [outcome_generate] at h
  cases hrender : (renderSchema (directorySource w directory) directory format).result with
  | error e =>
    rw [hrender] at h
    exact absurd (congrArg Prod.snd h) nofun
  | ok files =>
    rw [hrender] at h
    dsimp only at h
    rcases houtcome : (Workspace.replaceOutput .willing output files).outcome w with ⟨u, result⟩
    rw [houtcome] at h
    cases result with
    | error e => exact absurd (congrArg Prod.snd h) nofun
    | ok =>
      obtain ⟨rfl, hlength⟩ := Prod.mk.inj h
      exact ⟨files, rfl, houtcome, Except.ok.inj hlength⟩

/-! ### Documents -/

/-- The paths of the documents that a run asks for. -/
def documentPaths (w : Workspace) (directory : String) : List String :=
  (Traced.requests (crawl (directorySource w directory) rootReference).events).map
    (Workspace.Path.join directory)

/-- A document is the same where its file is. -/
theorem fetch_directorySource_congr {reference : String}
    (h : v.read (Workspace.Path.join directory reference) =
      w.read (Workspace.Path.join directory reference)) :
    (directorySource v directory).fetch reference = (directorySource w directory).fetch reference := by
  simp only [directorySource, h]

theorem fetch_directorySource_of_error {reference : String} {cause : Workspace.SystemError}
    (h : v.read (Workspace.Path.join directory reference) = .error cause) :
    ∃ e, (directorySource v directory).fetch reference = .error e := by
  simp only [directorySource, h]
  exact ⟨_, rfl⟩

theorem exists_read_of_fetch {reference : String} {value : Yaml.Value}
    (h : (directorySource w directory).fetch reference = .ok value) :
    ∃ text, w.read (Workspace.Path.join directory reference) = .ok text := by
  cases hread : w.read (Workspace.Path.join directory reference) with
  | ok text => exact ⟨text, rfl⟩
  | error cause =>
    obtain ⟨e, he⟩ := fetch_directorySource_of_error hread
    rw [he] at h
    cases h

/-- All documents that a successful run asks for can be read. -/
theorem exists_read_of_mem_documentPaths {path : String}
    (h : (renderSchema (directorySource w directory) directory format).result = .ok files)
    (hpath : path ∈ documentPaths w directory) : ∃ text, w.read path = .ok text := by
  obtain ⟨schema, hschema⟩ := exists_crawl_of_renderSchema h
  obtain ⟨reference, hreference, rfl⟩ := List.mem_map.mp hpath
  obtain ⟨value, hvalue⟩ := exists_fetch_of_mem_requests hschema hreference
  exact exists_read_of_fetch hvalue

/-! ### A second run -/

/-- A run that finds the same documents renders the same files. -/
theorem renderSchema_of_read_eq
    (h : (renderSchema (directorySource w directory) directory format).result = .ok files)
    (hread : ∀ path ∈ documentPaths w directory, v.read path = w.read path) :
    (renderSchema (directorySource v directory) directory format).result = .ok files := by
  rw [← h]
  apply renderSchema_congr
  refine (crawl_congr fun reference hreference => ?_).1
  exact fetch_directorySource_congr (hread _ (List.mem_map_of_mem hreference))

/-- A run that renders files has found all documents of the first run, if these are the same or
cannot be read. -/
theorem exists_read_of_renderSchema {files' : List RenderedFile}
    (h : (renderSchema (directorySource w directory) directory format).result = .ok files)
    (h' : (renderSchema (directorySource v directory) directory format).result = .ok files')
    (hread : ∀ path ∈ documentPaths w directory,
      v.read path = w.read path ∨ ∃ cause, v.read path = .error cause) :
    ∀ path ∈ documentPaths w directory, ∃ text, v.read path = .ok text := by
  obtain ⟨schema, hschema⟩ := exists_crawl_of_renderSchema h
  obtain ⟨schema', hschema'⟩ := exists_crawl_of_renderSchema h'
  have hkept : ∀ reference ∈ Traced.requests (crawl (directorySource w directory) rootReference).events,
      (directorySource v directory).fetch reference = (directorySource w directory).fetch reference ∨
        ∃ e, (directorySource v directory).fetch reference = .error e := by
    intro reference hreference
    rcases hread _ (List.mem_map_of_mem hreference) with hsame | ⟨cause, herror⟩
    · exact .inl (fetch_directorySource_congr hsame)
    · exact .inr (fetch_directorySource_of_error herror)
  rcases follows_crawl rootReference hkept with ⟨hagree, -⟩ | ⟨-, e, hfail⟩
  · intro path hpath
    obtain ⟨reference, hreference, rfl⟩ := List.mem_map.mp hpath
    obtain ⟨value, hvalue⟩ := exists_fetch_of_mem_requests hschema hreference
    exact exists_read_of_fetch ((hagree reference hreference).trans hvalue)
  · rw [hschema'] at hfail
    cases hfail

/-- An output that was written can be written again, unless a path is too long. -/
theorem outcome_generate_of_render {front : List String} {d : Location} {m : String}
    (hsettled : v.Settled output front d m) (hholds : v.Holds (m :: d) files)
    (hrender : (renderSchema (directorySource v directory) directory format).result = .ok files)
    (hroom : ∀ e u, (generate directory output format).outcome v = (u, .error (.output e)) →
      e.cause ≠ .nameTooLong) :
    ∃ u, (generate directory output format).outcome v = (u, .ok files.length) ∧
      SameBut [] v u := by
  have hplain := isPlain_of_mem_renderSchema hrender
  have hworks := Workspace.ensures_replaceOutput_of_settled hsettled hplain
  have hreplace := Workspace.ensures_replaceOutput_hasOutput .willing v output files
    fun f hf => .inl (hplain f hf).1
  rw [hsettled.withParents_eq] at hreplace
  rw [outcome_generate, hrender] at hroom ⊢
  dsimp only at hroom ⊢
  rcases houtcome : (Workspace.replaceOutput .willing output files).outcome v with ⟨u, result⟩
  obtain ⟨rfl, hresult⟩ := Prod.mk.inj houtcome
  rw [houtcome] at hroom
  cases result with
  | error e => exact absurd (hworks.of_error hresult) (hroom e _ rfl)
  | ok => exact ⟨_, rfl, (hreplace.of_ok hresult).sameBut_nil hsettled hholds⟩

/-! ### Main result -/

/-- Where a path leads if it leads anywhere. -/
def Workspace.placeOf (w : Workspace) (path : String) : Location :=
  follow (w.startOf path) (Workspace.Path.segments path)

/-- After a run that succeeds its files stand at the output.  If no path of a document enters that
place, all documents are as they were, a second run succeeds with as many files, and the same stands
everywhere afterwards.  If no document stands where a file of the output is put, this is the only
case in which a second run succeeds: a document whose path enters the place is lost with what stood
there before.

The path that the old output is moved to is longer than those that the first run has used, if that
found no output; it must not be too long. -/
theorem generation_repeats_iff_documents_apart
    (h : (generate directory output format).outcome w = (v, .ok n))
    (hroom : ∀ e u, (generate directory output format).outcome v = (u, .error (.output e)) →
      e.cause ≠ .nameTooLong) :
    ∃ here files, v.locate output = .ok here ∧ v.Holds here files ∧ files.length = n ∧
      ((∀ path ∈ documentPaths w directory, ¬ w.Enters path here) →
        (∀ path ∈ documentPaths w directory, v.read path = w.read path) ∧
        ∃ u, (generate directory output format).outcome v = (u, .ok n) ∧ SameBut [] v u) ∧
      ((∀ path ∈ documentPaths w directory, ∀ f ∈ files, w.placeOf path ≠ f.name :: here) →
        ((∃ u m, (generate directory output format).outcome v = (u, .ok m)) ↔
          ∀ path ∈ documentPaths w directory, ¬ w.Enters path here)) := by
  obtain ⟨files, hrender, houtcome, rfl⟩ := exists_render_of_outcome_generate h
  obtain ⟨rfl, hresult⟩ := Prod.mk.inj houtcome
  have hplain := isPlain_of_mem_renderSchema hrender
  have hreplace := (Workspace.ensures_replaceOutput_hasOutput .willing w output files
    fun f hf => .inl (hplain f hf).1).of_ok hresult
  obtain ⟨front, d, m, hsettled, hholds, hsame, hlocate⟩ := hreplace.exists_settled
  generalize (Workspace.replaceOutput .willing output files w).1 = v at *
  have hgrows := Workspace.grows_makeDirectories w (fun _ => none) (Workspace.outputParent output)
  have hkept : ∀ path ∈ documentPaths w directory, ¬ w.Enters path (m :: d) →
      v.read path = w.read path := by
    intro path hpath henters
    obtain ⟨text, htext⟩ := exists_read_of_mem_documentPaths hrender hpath
    rw [htext]
    exact hgrows.read_of_not_enters hsame hholds.kindAt? htext henters
  have hrepeats (hapart : ∀ path ∈ documentPaths w directory, ¬ w.Enters path (m :: d)) :
      ∃ u, (generate directory output format).outcome v = (u, .ok files.length) ∧ SameBut [] v u := by
    refine outcome_generate_of_render hsettled hholds ?_ hroom
    exact renderSchema_of_read_eq hrender fun path hpath => hkept path hpath (hapart path hpath)
  refine ⟨m :: d, files, hlocate, hholds, rfl, fun hapart => ⟨?_, hrepeats hapart⟩, fun hfree => ?_⟩
  · exact fun path hpath => hkept path hpath (hapart path hpath)
  · constructor
    · rintro ⟨u, k, hagain⟩ path hpath henters
      obtain ⟨files', hrender', -⟩ := exists_render_of_outcome_generate hagain
      have hlost : ∀ path ∈ documentPaths w directory, w.Enters path (m :: d) →
          ∀ text, v.read path ≠ .ok text := by
        intro path hpath henters text htext
        obtain ⟨f, hf, hplace⟩ :=
          hholds.exists_file_of_enters (hsame.home.trans hgrows.home) henters htext
        exact hfree path hpath f hf hplace
      have hread : ∀ path ∈ documentPaths w directory,
          v.read path = w.read path ∨ ∃ cause, v.read path = .error cause := by
        intro path hpath
        by_cases henters : w.Enters path (m :: d)
        · cases hfound : v.read path with
          | ok text => exact absurd hfound (hlost path hpath henters text)
          | error cause => exact .inr ⟨cause, rfl⟩
        · exact .inl (hkept path hpath henters)
      obtain ⟨text, htext⟩ := exists_read_of_renderSchema hrender hrender' hread path hpath
      exact hlost path hpath henters text htext
    · intro hapart
      obtain ⟨u, hu, -⟩ := hrepeats hapart
      exact ⟨u, _, hu⟩

/-! ### A schema beside its output and below it -/

/-- A schema with one layer in a directory of its own. -/
def schemaWorkspace : Workspace :=
  { Workspace.fresh with
    tree := .directory [("work", .directory [("schema", .directory [
      ("openmaptiles.yaml", .file "tileset: \x7blayers: [sea.yaml]\x7d"),
      ("sea.yaml", .file "layer: \x7bid: sea\x7d")])])] }

/-- A result that is kept without its error. -/
theorem eq_ok_of_toOption {ε α : Type} {r : Except ε α} {a : α} (h : r.toOption = some a) :
    r = .ok a := by
  cases r with
  | error e => cases h
  | ok x => exact congrArg Except.ok (Option.some.inj h)

theorem generation_repeats_iff_documents_apart_two_directories :
    ∃ v u, (generate "schema" "out" .manifest).outcome schemaWorkspace = (v, .ok 1) ∧
      (generate "schema" "out" .manifest).outcome v = (u, .ok 1) ∧ SameBut [] v u := by
  obtain ⟨hfirst, hsecond, hplace⟩ :
      (generate "schema" "out" .manifest schemaWorkspace).2.result.toOption = some 1 ∧
      (generate "schema" "out" .manifest
        (generate "schema" "out" .manifest schemaWorkspace).1).2.result.toOption = some 1 ∧
      ((generate "schema" "out" .manifest schemaWorkspace).1.locate "out").toOption =
        some ["out", "work"] := by decide +kernel
  have hrun : (generate "schema" "out" .manifest).outcome schemaWorkspace =
      ((generate "schema" "out" .manifest schemaWorkspace).1, .ok 1) :=
    Action.outcome_eq_iff.mpr ⟨rfl, eq_ok_of_toOption hfirst⟩
  have hroom : ∀ e u, (generate "schema" "out" .manifest).outcome
      (generate "schema" "out" .manifest schemaWorkspace).1 = (u, .error (.output e)) →
        e.cause ≠ .nameTooLong := by
    intro e u h
    have hresult := (Action.outcome_eq_iff.mp h).2
    rw [hresult] at hsecond
    cases hsecond
  obtain ⟨here, files, hlocate, -, -, hrepeats, -⟩ :=
    generation_repeats_iff_documents_apart hrun hroom
  obtain rfl : here = ["out", "work"] :=
    Except.ok.inj (hlocate.symm.trans (eq_ok_of_toOption hplace))
  obtain ⟨-, u, hu, hsame⟩ := hrepeats (by decide +kernel)
  exact ⟨_, u, hrun, hu, hsame⟩

/-- An output that is the directory of the schema takes its place, so there is no second run. -/
theorem not_repeats_over_schema :
    ∃ v, (generate "schema" "schema" .manifest).outcome schemaWorkspace = (v, .ok 1) ∧
      ∀ u n, (generate "schema" "schema" .manifest).outcome v ≠ (u, .ok n) := by
  obtain ⟨hfirst, hsecond⟩ :
      (generate "schema" "schema" .manifest schemaWorkspace).2.result.toOption = some 1 ∧
      (generate "schema" "schema" .manifest
        (generate "schema" "schema" .manifest schemaWorkspace).1).2.result.toOption = none := by
    decide +kernel
  refine ⟨_, Action.outcome_eq_iff.mpr ⟨rfl, eq_ok_of_toOption hfirst⟩, fun u n h => ?_⟩
  have hresult := (Action.outcome_eq_iff.mp h).2
  rw [hresult] at hsecond
  cases hsecond

end TileSchema
