import TileSchema.Proofs.Table.FieldTypes

/-!
# The source element among the fields

The last field of every row is the source element, and no column may take its place.  The columns of
a table alone do not exclude this, as one of them can have the name of that field.  But no kind of
column makes a field the source element (`IsFieldOf.type_ne`), so the name would have two types, and
fields are registered with one type for each name.  Hence tables with such a column are not compiled,
and in all others the source element is there once.

What a column stands for is said kind by kind by `IsFieldOf`, and which columns stand for a field at
all by `DeclaresField`.  The fields in front of the source element are those of the columns one by
one, in their order (`forall₂_columnFields`).
-/

namespace TileSchema.Table

open Ordered (Dict)

variable {key : String} {t : TableSpec} {c : Column} {cs : List Column} {f : Field} {fs : List Field}
  {entry : String × TableSpec} {compiled : Compiled}

/-! ### What columns stand for -/

/-- The kinds of columns that hold what the element shows anyway. -/
def structuralKinds : List String :=
  ["id", "validated_geometry", "area", "hstore_tags", "geometry", "member_id", "member_role",
    "member_type", "member_index"]

/-- A column of a table stands for a field, unless its kind is structural or it belongs to the
members in a table of relation members. -/
def DeclaresField (t : TableSpec) (c : Column) : Prop :=
  c.kind ∉ structuralKinds ∧ ¬ (t.kind = "relation_member" ∧ c.fromMember = true)

instance (t : TableSpec) : DecidablePred (DeclaresField t) := fun c =>
  inferInstanceAs (Decidable (c.kind ∉ structuralKinds ∧
    ¬ (t.kind = "relation_member" ∧ c.fromMember = true)))

/-- The field of a column has its name, and the type and extraction of its kind; some kinds need the
key of the column. -/
inductive IsFieldOf (c : Column) : Field → Prop
  | mappingKey (h : c.kind = "mapping_key") : IsFieldOf c ⟨.string, c.name, .mappingKey⟩
  | mappingValue (h : c.kind = "mapping_value") : IsFieldOf c ⟨.string, c.name, .mappingValue⟩
  | string {k : String} (h : c.kind = "string") (hkey : c.key = some k) :
    IsFieldOf c ⟨.string, c.name, .attribute k⟩
  | bool {k : String} (h : c.kind = "bool") (hkey : c.key = some k) :
    IsFieldOf c ⟨.boolean, c.name, .attributeAsBool k⟩
  | integer {k : String} (h : c.kind = "integer") (hkey : c.key = some k) :
    IsFieldOf c ⟨.integer, c.name, .attributeAsInt k⟩
  | wayZOrder (h : c.kind = "wayzorder") : IsFieldOf c ⟨.integer, c.name, .wayZOrder⟩
  | direction {k : String} (h : c.kind = "direction") (hkey : c.key = some k) :
    IsFieldOf c ⟨.integer, c.name, .direction k⟩

theorem IsFieldOf.name_eq (h : IsFieldOf c f) : f.name = c.name := by
  cases h <;> rfl

/-- No kind of column makes a field the source element. -/
theorem IsFieldOf.type_ne (h : IsFieldOf c f) : f.type ≠ .rawElement := by
  cases h <;> exact nofun

/-- A structural kind asks for no field, and every other kind that there is for the field that
stands for it. -/
theorem columnKind?_cases (kind : String) :
    (kind ∈ structuralKinds ∧ columnKind? kind = some .structural) ∨
      kind ∉ structuralKinds ∧
        (columnKind? kind = none ∨
          (∃ type extraction, columnKind? kind = some (.plain type extraction) ∧
            ∀ c : Column, c.kind = kind → IsFieldOf c ⟨type, c.name, extraction⟩) ∨
          ∃ type extraction, columnKind? kind = some (.keyed type extraction) ∧
            ∀ c : Column, c.kind = kind → ∀ k, c.key = some k →
              IsFieldOf c ⟨type, c.name, extraction k⟩) := by
  unfold columnKind?
  split
  iterate 9 exact .inl ⟨by decide, rfl⟩
  · exact .inr ⟨by decide, .inr (.inl ⟨_, _, rfl, fun _ h => .mappingKey h⟩)⟩
  · exact .inr ⟨by decide, .inr (.inl ⟨_, _, rfl, fun _ h => .mappingValue h⟩)⟩
  · exact .inr ⟨by decide, .inr (.inr ⟨_, _, rfl, fun _ h _ hkey => .string h hkey⟩)⟩
  · exact .inr ⟨by decide, .inr (.inr ⟨_, _, rfl, fun _ h _ hkey => .bool h hkey⟩)⟩
  · exact .inr ⟨by decide, .inr (.inr ⟨_, _, rfl, fun _ h _ hkey => .integer h hkey⟩)⟩
  · exact .inr ⟨by decide, .inr (.inl ⟨_, _, rfl, fun _ h => .wayZOrder h⟩)⟩
  · exact .inr ⟨by decide, .inr (.inr ⟨_, _, rfl, fun _ h _ hkey => .direction h hkey⟩)⟩
  · refine .inr ⟨?_, .inl rfl⟩
    simp_all [structuralKinds]

/-- A column becomes no field if its kind is structural, and otherwise the field of its kind. -/
theorem columnField_cases {field : Option Field} (h : columnField key c = .ok field) :
    (c.kind ∈ structuralKinds ∧ field = none) ∨
      c.kind ∉ structuralKinds ∧ ∃ f, IsFieldOf c f ∧ field = some f := by
  unfold columnField at h
  rcases columnKind?_cases c.kind with ⟨hkind, heq⟩ |
    ⟨hkind, heq | ⟨type, extraction, heq, hfield⟩ | ⟨type, extraction, heq, hfield⟩⟩
  · rw [heq] at h
    exact .inl ⟨hkind, (Except.ok.inj h).symm⟩
  · rw [heq] at h
    cases h
  · rw [heq] at h
    exact .inr ⟨hkind, _, hfield c rfl, (Except.ok.inj h).symm⟩
  · rw [heq] at h
    cases hkey : c.key with
    | none =>
      rw [hkey] at h
      cases h
    | some k =>
      rw [hkey] at h
      exact .inr ⟨hkind, _, hfield c rfl k hkey, (Except.ok.inj h).symm⟩

/-- The fields of columns are those of the columns that are not structural, one by one. -/
theorem forall₂_columnFields (h : columnFields key cs = .ok fs) :
    List.Forall₂ IsFieldOf (cs.filter fun c => c.kind ∉ structuralKinds) fs := by
  induction cs generalizing fs with
  | nil =>
    cases h
    exact .nil
  | cons c cs ih =>
    obtain ⟨field, hfield, h⟩ := bind_eq_ok_iff.mp h
    obtain ⟨rest, hrest, h⟩ := bind_eq_ok_iff.mp h
    cases h
    rcases columnField_cases hfield with ⟨hkind, rfl⟩ | ⟨hkind, f, hf, rfl⟩
    · rw [List.filter_cons_of_neg (by simpa using hkind)]
      exact ih hrest
    · rw [List.filter_cons_of_pos (by simpa using hkind)]
      exact .cons hf (ih hrest)

/-! ### Fields of a table -/

/-- The fields of a table are those of the columns that stand for one, and the source element. -/
theorem exists_fields_eq (h : fields key t = .ok fs) :
    ∃ front, fs = front ++ [Field.source] ∧
      List.Forall₂ IsFieldOf (t.columns.filter (DeclaresField t)) front := by
  obtain ⟨front, hfront, rfl⟩ := map_eq_ok_iff.mp h
  refine ⟨front, rfl, ?_⟩
  have hcolumns : (relevantColumns t).filter (fun c => c.kind ∉ structuralKinds) =
      t.columns.filter (DeclaresField t) := by
    rw [relevantColumns, List.filter_filter]
    refine List.filter_congr fun c _ => ?_
    simp [DeclaresField, TableSpec.isRelationMember, relationMember, beq_eq_decide]
  rw [← hcolumns]
  exact forall₂_columnFields hfront

/-- A field of a compiled table that has the name of the source element has its type, too. -/
theorem type_eq_of_name_eq_source {calls : List (Dict TableSpec)} {tables : Dict TableSpec}
    {cs : List Compiled} (hok : (compile (typesAfter calls) tables).2 = .ok cs)
    (hc : compiled ∈ cs) (hsource : Field.source ∈ compiled.fields) (hf : f ∈ compiled.fields)
    (hname : f.name = Field.source.name) : f.type = .rawElement := by
  have htype := get?_of_compile calls [] hok hc hf
  rw [hname, get?_of_compile calls [] hok hc hsource, Option.some.injEq] at htype
  exact htype.symm

/-- In every row there is the source element, once and at the end.  Whatever was registered by
earlier calls, the fields of a compiled table end with the source element, none of those in front of
it has its name or its type, and these are the fields of the columns that stand for one, in their
order.  So tables are not compiled if a column that stands for a field has the name of the source
element. -/
theorem source_element_last_and_once (calls : List (Dict TableSpec)) (tables : Dict TableSpec) :
    (∀ cs, (compile (typesAfter calls) tables).2 = .ok cs →
      List.Forall₂ (fun entry compiled => ∃ front,
          compiled.fields = front ++ [⟨.rawElement, "source", .sourceElement⟩] ∧
          (∀ f ∈ front, f.name ≠ "source" ∧ f.type ≠ .rawElement) ∧
          List.Forall₂ IsFieldOf (entry.2.columns.filter (DeclaresField entry.2)) front)
        tables.entries cs) ∧
    ∀ entry ∈ tables.entries, ∀ c ∈ entry.2.columns, DeclaresField entry.2 c → c.name = "source" →
      ∃ e, (compile (typesAfter calls) tables).2 = .error e := by
  have hrows : ∀ cs, (compile (typesAfter calls) tables).2 = .ok cs →
      List.Forall₂ (fun entry compiled => ∃ front,
          compiled.fields = front ++ [Field.source] ∧
          (∀ f ∈ front, f.name ≠ "source" ∧ f.type ≠ .rawElement) ∧
          List.Forall₂ IsFieldOf (entry.2.columns.filter (DeclaresField entry.2)) front)
        tables.entries cs := by
    intro cs hok
    have hcompiled : List.Forall₂ IsCompiled tables.entries cs := compileAll_eq_ok (Prod.ext rfl hok)
    rw [List.forall₂_iff_zip] at hcompiled ⊢
    refine ⟨hcompiled.1, fun {entry compiled} hmem => ?_⟩
    have hc : compiled ∈ cs := (List.of_mem_zip hmem).2
    obtain ⟨fs, e, hfields, -, rfl⟩ := hcompiled.2 hmem
    obtain ⟨front, rfl, hcolumns⟩ := exists_fields_eq hfields
    refine ⟨front, rfl, fun f hf => ?_, hcolumns⟩
    obtain ⟨c, -, hfield⟩ := exists_mem_of_forall₂ hcolumns.flip hf
    have hsource : Field.source ∈ front ++ [Field.source] :=
      List.mem_append_right _ (List.mem_singleton.mpr rfl)
    refine ⟨fun hname => hfield.type_ne ?_, hfield.type_ne⟩
    exact type_eq_of_name_eq_source hok hc hsource (List.mem_append_left _ hf) hname
  refine ⟨hrows, fun entry hentry c hc hdeclares hname => ?_⟩
  cases hresult : (compile (typesAfter calls) tables).2 with
  | error e => exact ⟨e, rfl⟩
  | ok cs =>
    obtain ⟨compiled, -, front, -, hfront, hcolumns⟩ :=
      exists_mem_of_forall₂ (hrows cs hresult) hentry
    have hcolumn : c ∈ entry.2.columns.filter (DeclaresField entry.2) :=
      List.mem_filter.mpr ⟨hc, decide_eq_true hdeclares⟩
    obtain ⟨f, hf, hfield⟩ := exists_mem_of_forall₂ hcolumns hcolumn
    exact absurd (hfield.name_eq.trans hname) (hfront f hf).1

/-- A table of places with a column that has the name of the source element. -/
def sourcedPlaces : Dict TableSpec :=
  Dict.empty.put "places"
    (pointsWith { kind := "string", name := "source", key := some "source:name" } .null)

/-- After a failed call, a row with a height ends with the source element, and a table with a source
of its own is refused. -/
theorem source_element_last_and_once_high_peaks :
    (∃ compiled, (compile (typesAfter [namedPlaces]) highPeaks).2 = .ok [compiled] ∧
      ∃ front, compiled.fields = front ++ [⟨.rawElement, "source", .sourceElement⟩] ∧
        ∀ f ∈ front, f.name ≠ "source" ∧ f.type ≠ .rawElement) ∧
    ∃ e, (compile (typesAfter [namedPlaces]) sourcedPlaces).2 = .error e := by
  obtain ⟨hrows, -⟩ := source_element_last_and_once [namedPlaces] highPeaks
  obtain ⟨-, hrefused⟩ := source_element_last_and_once [namedPlaces] sourcedPlaces
  obtain ⟨compiled, hcompiled⟩ : ∃ compiled,
      (compile (typesAfter [namedPlaces]) highPeaks).2 = .ok [compiled] := ⟨_, rfl⟩
  obtain ⟨⟨front, hfields, hfront, -⟩, -⟩ := List.forall₂_cons.mp (hrows [compiled] hcompiled)
  refine ⟨⟨compiled, hcompiled, front, hfields, hfront⟩, ?_⟩
  exact hrefused _ List.mem_cons_self _ List.mem_cons_self (by decide) rfl

end TileSchema.Table
