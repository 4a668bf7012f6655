import TileSchema.Artifact.Build
import TileSchema.Proofs.Results
import TileSchema.Proofs.Table.FieldTypes

/-!
# The first offence

A schema can be wrong at many sites: in the values of the fields of its layers, in the columns and
filters of its tables, and in the types of fields with one name.  Here the sites are listed in the
order in which they are come to (`sites`), and each of them is asked on its own what is wrong with
it (`Site.offence`).  Only the site of a field that is registered knows other fields, those that are
declared in front of it.

Building a schema fails with the first offence of its sites.  Every part of the work has the error
that is the first offence of its own sites, and one after the other they have the first offence of
both (`error?_bind`); so the proof follows the layers and the tables.
-/

namespace TileSchema.Artifact

open Table (Field FieldTypes Records columnKind?)

variable {layer key : String} {t : TableSpec} {types : FieldTypes} {earlier fs : List Field}

/-! ### Sites -/

/-- A site of a schema that can be wrong. -/
inductive Site where
  /-- The values of a field of a layer, as far as they are documented. -/
  | documented (layer name : String) (f : Filter)
  /-- The filter of one of the values of a field. -/
  | value (layer name v : String) (f : Filter)
  /-- A column of a table. -/
  | column (table : String) (t : TableSpec) (c : Column)
  /-- A field of a table, with the fields that are declared in front of it. -/
  | field (table : String) (earlier : List Field) (f : Field)
  /-- The filters of a table. -/
  | filters (table : String) (t : TableSpec)

/-- What is wrong with a column: its kind is unknown, or asks for a key that is not there. -/
def columnOffence (table : String) (c : Column) : Option SchemaError :=
  match columnKind? c.kind, c.key with
  | none, _ => some (.unsupportedColumnKind table c.name c.kind)
  | some (.keyed ..), none => some (.missingColumnKey table c.name c.kind)
  | _, _ => none

/-- What is wrong with a site, if anything is. -/
def Site.offence : Site → Option SchemaError
  | .documented layer name f =>
    (error? (allowedValues f)).map
      (.malformedFilter ("field '" ++ name ++ "' of layer '" ++ layer ++ "'"))
  | .value layer name v f =>
    (error? f.compile).map
      (.malformedFilter
        ("value '" ++ v ++ "' of field '" ++ name ++ "' of layer '" ++ layer ++ "'"))
  | .column table t c =>
    if t.isRelationMember && c.fromMember then none else columnOffence table c
  | .field table earlier f =>
    match earlier.find? (·.name = f.name) with
    | none => none
    | some g =>
      if g.type = f.type then none else some (.conflictingFieldType f.name g.type f.type table)
  | .filters table t =>
    (error? (Table.tableSelection t)).map (.malformedFilter ("table '" ++ table ++ "'"))

/-- The sites of a field of a layer: its documented values, and the filters that they have. -/
def valueSites (layer name : String) : Option Filter → List Site
  | none => []
  | some f =>
    .documented layer name f ::
      ((valueFilters? f).getD []).map fun entry => .value layer name entry.1 entry.2

/-- The sites of a layer, field by field. -/
def layerSites (l : Layer) : List Site :=
  l.fields.entries.flatMap fun entry => valueSites l.id entry.1 entry.2.values

/-- The field that a column of a table declares, if it is in order and not passed over. -/
def declared? (t : TableSpec) (c : Column) : Option Field :=
  if t.isRelationMember && c.fromMember then none
  else
    match columnKind? c.kind, c.key with
    | some (.plain type extraction), _ => some ⟨type, c.name, extraction⟩
    | some (.keyed type extraction), some key => some ⟨type, c.name, extraction key⟩
    | _, _ => none

/-- The fields that a table declares, with the source element at the end. -/
def declaredFields (t : TableSpec) : List Field :=
  t.columns.filterMap (declared? t) ++ [Field.source]

/-- The sites of fields that are registered behind other fields. -/
def fieldSites (table : String) (earlier : List Field) : List Field → List Site
  | [] => []
  | f :: fs => .field table earlier f :: fieldSites table (earlier ++ [f]) fs

/-- The sites of tables that stand behind the declarations of other fields: those of each table are
its columns, its fields and its filters. -/
def tableSites (earlier : List Field) : List (String × TableSpec) → List Site
  | [] => []
  | (key, t) :: rest =>
    t.columns.map (.column key t) ++ fieldSites key earlier (declaredFields t) ++
      [.filters key t] ++ tableSites (earlier ++ declaredFields t) rest

/-- The sites of a schema: those of its layers in order, and then those of its tables in order. -/
def sites (schema : Schema) : List Site :=
  schema.layers.flatMap layerSites ++ tableSites [] schema.tables.entries

/-- What is wrong with the first site at which something is wrong. -/
def firstOffence (ss : List Site) : Option SchemaError := ss.findSome? Site.offence

@[simp] theorem firstOffence_nil : firstOffence [] = none := rfl

@[simp] theorem firstOffence_cons (s : Site) (ss : List Site) :
    firstOffence (s :: ss) = s.offence.or (firstOffence ss) := by
  rw [firstOffence, List.findSome?_cons]
  cases s.offence <;> rfl

@[simp] theorem firstOffence_append (ss ss' : List Site) :
    firstOffence (ss ++ ss') = (firstOffence ss).or (firstOffence ss') :=
  List.findSome?_append

/-! ### Layers -/

/-- A malformed filter is reported at the place that is given for it. -/
theorem error?_liftFault {α : Type} (place : String) (r : Except Filter.Fault α) :
    error? (liftFault place r) = (error? r).map (.malformedFilter place) := by
  cases r <;> rfl

/-- The place of a value of a field. -/
theorem inContext_fieldPlace (layer name value : String) (fault : Filter.Fault) :
    (SchemaError.malformedFilter (valuePlace value) fault).inContext (fieldPlace layer name) =
      .malformedFilter ("value '" ++ value ++ "' of field '" ++ name ++ "' of layer '" ++ layer ++
        "'") fault := by
  have hplace : (valuePlace value).isEmpty = false := by
    rw [Bool.eq_false_iff, ne_eq, String.isEmpty_iff, ← String.toList_inj]
    simp [valuePlace]
  rw [SchemaError.inContext, hplace]
  refine congrArg (SchemaError.malformedFilter · fault) (String.toList_inj.mp ?_)
  simp [valuePlace, fieldPlace]

/-- The rules of a field fail with the first offence of its filters. -/
theorem error?_fieldRules (layer name : String) (entries : List (String × Filter)) :
    error? (within (fieldPlace layer name) (fieldRules entries)) =
      firstOffence (entries.map fun entry => .value layer name entry.1 entry.2) := by
  unfold within
  induction entries with
  | nil => rfl
  | cons entry entries ih =>
    have hrest : ∀ e : Filter.Expression, error? (do
        let rest ← fieldRules entries
        let e := e.simplify
        return if e.isTrue || e.isFalse then rest else ⟨e, entry.1⟩ :: rest) =
        error? (fieldRules entries) := by
      intro e
      exact error?_bind_of_forall fun _ => rfl
    rw [List.map_cons, firstOffence_cons, ← ih, error?_mapError, fieldRules,
      error?_bind fun e _ => hrest e, error?_liftFault, Option.map_or, error?_mapError,
      Option.map_map]
    have hplace := funext (inContext_fieldPlace layer name entry.1)
    exact congrArg (fun f => ((error? entry.2.compile).map f).or _) hplace

/-- The values of a field fail with the first offence of its sites. -/
theorem error?_fieldValues (layer name : String) (values : Option Filter) :
    error? (fieldValues (fieldPlace layer name) values) =
      firstOffence (valueSites layer name values) := by
  cases values with
  | none => rfl
  | some values =>
    have hdocumented : error? (liftFault (fieldPlace layer name) (allowedValues values)) =
        (Site.documented layer name values).offence := error?_liftFault _ _
    rw [fieldValues, valueSites, firstOffence_cons, ← hdocumented]
    refine error?_bind fun allowed _ => ?_
    cases valueFilters? values with
    | none => rfl
    | some entries =>
      rw [Option.getD_some, ← error?_fieldRules, error?_bind_of_forall fun _ => rfl]
      simp only [within, fieldMapping, error?_mapError, error?_map]

/-- A layer fails with the first offence of its sites. -/
theorem error?_compileLayer (l : Layer) :
    error? (compileLayer l) = firstOffence (layerSites l) := by
  have hfield : ∀ entry : String × FieldSpec, error? (compileField l.id entry.1 entry.2) =
      (valueSites l.id entry.1 entry.2.values).findSome? Site.offence := by
    intro entry
    rw [compileField, error?_bind_of_forall fun _ => rfl, error?_fieldValues,
      firstOffence]
  rw [compileLayer, error?_bind_of_forall fun _ => rfl, error?_mapM hfield]
  rfl

/-! ### Tables -/

/-- A column that counts fails with its offence. -/
theorem error?_columnField (key : String) (c : Column) :
    error? (Table.columnField key c) = columnOffence key c := by
  unfold Table.columnField columnOffence
  cases columnKind? c.kind with
  | none => rfl
  | some kind => cases kind <;> cases c.key <;> rfl

/-- A column that counts gives the field that it declares. -/
theorem declared?_of_columnField {c : Column} {field : Option Field}
    (hrelevant : (t.isRelationMember && c.fromMember) = false)
    (h : Table.columnField key c = .ok field) : declared? t c = field := by
  unfold Table.columnField at h
  unfold declared?
  rw [hrelevant]
  cases hkind : columnKind? c.kind with
  | none => simp [hkind] at h
  | some kind => cases kind <;> cases hkey : c.key <;> simp_all

/-- The columns that count fail with the first offence of the columns, those passed over included,
or else give the fields that all the columns declare. -/
theorem columnFields_cases (key : String) (t : TableSpec) (cs : List Column) :
    error? (Table.columnFields key (cs.filter fun c => !(t.isRelationMember && c.fromMember))) =
        firstOffence (cs.map (.column key t)) ∧
      ∀ fs, Table.columnFields key (cs.filter fun c => !(t.isRelationMember && c.fromMember)) =
        .ok fs → fs = cs.filterMap (declared? t) := by
  induction cs with
  | nil => exact ⟨rfl, fun fs h => (Except.ok.inj h).symm⟩
  | cons c cs ih =>
    obtain ⟨herror, hfields⟩ := ih
    rw [List.map_cons, firstOffence_cons, ← herror, List.filterMap_cons]
    cases hrelevant : t.isRelationMember && c.fromMember with
    | true =>
      -- the column is passed over
      have hsite : (Site.column key t c).offence = none := by
        rw [Site.offence, hrelevant]
        rfl
      have hdeclared : declared? t c = none := by
        rw [declared?, hrelevant]
        rfl
      rw [List.filter_cons, hrelevant, hsite, hdeclared]
      exact ⟨rfl, hfields⟩
    | false =>
      have hsite : (Site.column key t c).offence = error? (Table.columnField key c) := by
        rw [Site.offence, hrelevant, error?_columnField]
        rfl
      rw [List.filter_cons, hrelevant, hsite]
      constructor
      · refine error?_bind fun field _ => ?_
        exact error?_bind_of_forall fun _ => rfl
      · intro fs h
        obtain ⟨field, hfield, h⟩ := bind_eq_ok_iff.mp h
        obtain ⟨rest, hrest, h⟩ := bind_eq_ok_iff.mp h
        cases h
        rw [declared?_of_columnField hrelevant hfield, hfields rest hrest]
        cases field <;> rfl

/-- The fields of a table fail with the first offence of its columns, or else are those that it
declares. -/
theorem fields_cases (key : String) (t : TableSpec) :
    error? (Table.fields key t) = firstOffence (t.columns.map (.column key t)) ∧
      ∀ fs, Table.fields key t = .ok fs → fs = declaredFields t := by
  obtain ⟨herror, hfields⟩ := columnFields_cases key t t.columns
  unfold Table.fields Table.relevantColumns
  refine ⟨by rw [error?_map, herror], fun fs h => ?_⟩
  obtain ⟨columns, hcolumns, rfl⟩ := map_eq_ok_iff.mp h
  rw [hfields columns hcolumns, declaredFields]

/-- A field that contradicts a recorded one is an offence, whichever of its name is found first. -/
theorem offence_field_of_contradicts (h : Records types earlier) (key : String) {f g : Field}
    (hg : g ∈ earlier) (hcon : Table.Contradicts f g) :
    (Site.field key earlier f).offence =
      some (.conflictingFieldType f.name g.type f.type key) := by
  rw [Site.offence]
  cases hfind : earlier.find? (·.name = f.name) with
  | none =>
    have hname := List.find?_eq_none.mp hfind g hg
    exact absurd hcon.1.symm (by simpa using hname)
  | some g' =>
    have hname : g'.name = f.name := by simpa using List.find?_some hfind
    have htype : g'.type = g.type :=
      h.type_eq (List.mem_of_find?_eq_some hfind) hg (hname.trans hcon.1)
    simp only [htype]
    exact if_neg (Ne.symm hcon.2)

/-- A field that contradicts none in front of it is no offence. -/
theorem offence_field_of_forall (key : String) {f : Field}
    (hnone : ∀ g ∈ earlier, ¬ Table.Contradicts f g) :
    (Site.field key earlier f).offence = none := by
  rw [Site.offence]
  cases hfind : earlier.find? (·.name = f.name) with
  | none => rfl
  | some g =>
    have hname : g.name = f.name := by simpa using List.find?_some hfind
    have htype : g.type = f.type := by
      by_contra hne
      exact hnone g (List.mem_of_find?_eq_some hfind) ⟨hname.symm, Ne.symm hne⟩
    exact if_pos htype

/-- Registering fields fails with the first offence of their sites, or else they are recorded with
those that were registered before. -/
theorem register_cases (h : Records types earlier) (key : String) (fs : List Field) :
    error? (types.register key fs).2 = firstOffence (fieldSites key earlier fs) ∧
      ((types.register key fs).2 = .ok () → Records (types.register key fs).1 (earlier ++ fs)) := by
  rw [Table.register_eq_walk]
  induction fs generalizing types earlier with
  | nil => exact ⟨rfl, fun _ => by simpa [Table.walk] using h⟩
  | cons f fs ih =>
    rw [fieldSites, firstOffence_cons, List.map_cons, Table.walk]
    rcases h.register_cases key f with ⟨g, hg, hcon, hregister⟩ | ⟨hnone, types', hregister, h'⟩
    · rw [hregister, offence_field_of_contradicts h key hg hcon]
      refine ⟨rfl, ?_⟩
      intro hok
      cases hok
    · rw [hregister, offence_field_of_forall key hnone, Option.none_or,
        List.append_cons earlier f fs]
      exact ih h'

/-- A table fails with the first offence of its sites, or else its fields are recorded with those
that were registered before. -/
theorem compileOne_cases (h : Records types earlier) (key : String) (t : TableSpec) :
    error? (Table.compileOne types key t).2 =
        firstOffence (t.columns.map (.column key t) ++
          fieldSites key earlier (declaredFields t) ++ [.filters key t]) ∧
      ∀ c, (Table.compileOne types key t).2 = .ok c →
        Records (Table.compileOne types key t).1 (earlier ++ declaredFields t) := by
  obtain ⟨hfieldsError, hfields⟩ := fields_cases key t
  rw [firstOffence_append, firstOffence_append, ← hfieldsError]
  unfold Table.compileOne
  cases hresult : Table.fields key t with
  | error e => exact ⟨rfl, fun c hc => nomatch hc⟩
  | ok fs =>
    obtain rfl : fs = declaredFields t := hfields fs hresult
    obtain ⟨hregisterError, hrecords⟩ := register_cases h key (declaredFields t)
    rw [error?_ok, Option.none_or, ← hregisterError]
    dsimp only
    rcases hregister : types.register key (declaredFields t) with ⟨types', e | ⟨⟩⟩
    · refine ⟨rfl, ?_⟩
      rintro c ⟨⟩
    · rw [hregister] at hrecords
      refine ⟨?_, fun c _ => hrecords rfl⟩
      rw [error?_ok, Option.none_or, firstOffence_cons, firstOffence_nil, Option.or_none,
        error?_map, error?_liftFault]
      rfl

/-- Tables fail with the first offence of their sites. -/
theorem error?_compileAll (h : Records types earlier) (entries : List (String × TableSpec)) :
    error? (Table.compileAll types entries).2 = firstOffence (tableSites earlier entries) := by
  induction entries generalizing types earlier with
  | nil => rfl
  | cons entry entries ih =>
    obtain ⟨key, t⟩ := entry
    obtain ⟨herror, hrecords⟩ := compileOne_cases h key t
    rw [tableSites, firstOffence_append, ← herror, Table.compileAll]
    rcases hone : Table.compileOne types key t with ⟨types', e | c⟩
    · rfl
    · rw [hone] at hrecords
      rw [error?_ok, Option.none_or, ← ih (hrecords c rfl)]
      dsimp only
      rcases Table.compileAll types' entries with ⟨types'', e | cs⟩ <;> rfl

/-! ### Schemas -/

/-- A schema fails with the first offence of its sites. -/
theorem error?_build (schema : Schema) (source : String) :
    error? (build schema source).result = firstOffence (sites schema) := by
  have htables : error? (Table.compile .empty schema.tables).2 =
      firstOffence (tableSites [] schema.tables.entries) :=
    error?_compileAll .empty schema.tables.entries
  have hlayers : error? (schema.layers.mapM compileLayer) =
      firstOffence (schema.layers.flatMap layerSites) :=
    error?_mapM error?_compileLayer schema.layers
  have hcompile : error? (compileSchema schema source) = firstOffence (sites schema) := by
    rw [compileSchema, sites, firstOffence_append, ← hlayers, ← htables]
    refine error?_bind fun layers _ => ?_
    exact error?_bind_of_forall fun _ => rfl
  rw [build]
  simp only [Traced.result_bind, Traced.result_ofExcept]
  rw [error?_bind_of_forall fun _ => rfl, hcompile]

/-- A schema is built exactly if nothing is wrong with any of its sites.  Otherwise the error is the
offence of the first site with one: nothing is wrong with the sites in front of it, and those behind
it do not count. -/
theorem build_fails_with_first_offence (schema : Schema) (source : String) :
    ((∃ a, (build schema source).result = .ok a) ↔ ∀ s ∈ sites schema, s.offence = none) ∧
    ∀ e, (build schema source).result = .error e ↔
      ∃ before s after, sites schema = before ++ s :: after ∧
        (∀ s' ∈ before, s'.offence = none) ∧ s.offence = some e := by
  have hbuild := error?_build schema source
  constructor
  · rw [← error?_eq_none_iff, hbuild]
    exact List.findSome?_eq_none_iff
  · intro e
    rw [← error?_eq_some_iff, hbuild, firstOffence, List.findSome?_eq_some_iff]
    constructor
    · rintro ⟨before, s, after, hsplit, hs, hbefore⟩
      exact ⟨before, s, after, hsplit, hbefore, hs⟩
    · rintro ⟨before, s, after, hsplit, hbefore, hs⟩
      exact ⟨before, s, after, hsplit, hs, hbefore⟩

end TileSchema.Artifact
