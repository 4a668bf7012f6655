import TileSchema.Artifact.Render
import TileSchema.Proofs.Code.Scope
import TileSchema.Proofs.Results

/-!
# The first clash

Layers ask for modules, tables for the types of their rows and handlers, fields for accessor traits.
Each of the three is a list of claims, in the order in which they are made.  A claim clashes if a
claim in front of it is for the same identifier.  Of the first clash, all claims in front are for
different identifiers, so that just one of them holds the identifier.

A scope knows the claims that were made so far, hence settling finds the first clash
(`head?_settle`).  The modules are settled layer by layer, with a scope that is handed on, and this
comes to the same (`result_layerModules`).  Rendering makes the three checks one after the other,
and `rendering_fails_exactly_on_first_clash` says what it answers.
-/

namespace TileSchema.Code

open Artifact (ArtifactSet LayerArtifact RenderedFile)

variable {α : Type} {claims taken : List (String × String)} {c c' : Collision}
  {ds : List (Declaration α)}

/-! ### Claims -/

/-- The modules that the layers ask for, each with the layer. -/
def moduleClaims (a : ArtifactSet) : List (String × String) :=
  a.layers.map fun l => (Text.snakeIdent l.id, l.id)

/-- The types that the tables ask for, each with the table: the type of the rows and that of their
handlers, unless the rows are members of relations. -/
def typeClaims (a : ArtifactSet) : List (String × String) :=
  (a.tables.filter (!·.isRelationMember)).flatMap fun t =>
    [(t.rowType, t.key), (t.rowType ++ "Handler", t.key)]

/-- The accessor traits that the fields ask for, each with the field. -/
def traitClaims (a : ArtifactSet) : List (String × String) :=
  a.fieldTypes.entries.map fun e => (accessorTrait e.1, e.1)

/-- No two claims are for one identifier. -/
def AreApart (claims : List (String × String)) : Prop := (claims.map Prod.fst).Nodup

/-- The first claim for an identifier that is taken, and the name of the claim that took it. -/
def FirstClash (claims : List (String × String)) (c : Collision) : Prop :=
  ∃ before after, claims = before ++ (c.ident, c.name) :: after ∧
    AreApart before ∧ (c.ident, c.holder) ∈ before

/-- What keeps artifacts from being rendered: the first clash of the modules, or else that of the
types, or else that of the traits. -/
inductive FirstFault (a : ArtifactSet) : RenderError → Prop where
  | modules {c : Collision} : FirstClash (moduleClaims a) c → FirstFault a (.sameModule c)
  | types {c : Collision} : AreApart (moduleClaims a) → FirstClash (typeClaims a) c →
      FirstFault a (.sameType c)
  | traits {c : Collision} : AreApart (moduleClaims a) → AreApart (typeClaims a) →
      FirstClash (traitClaims a) c → FirstFault a (.sameTrait c)

/-! ### First clashes -/

/-- The claims in front of a claim are for other identifiers, if no two are for one. -/
theorem AreApart.ne_of_mem {before after : List (String × String)} {ident name : String}
    (h : AreApart (before ++ (ident, name) :: after)) (holder : String) :
    (ident, holder) ∉ before := by
  intro hmem
  unfold AreApart at h
  rw [List.map_append, List.map_cons, List.nodup_append] at h
  exact h.2.2 ident (List.mem_map.mpr ⟨_, hmem, rfl⟩) ident List.mem_cons_self rfl

/-- Without two claims for one identifier, there is no clash. -/
theorem not_firstClash (h : AreApart claims) : ¬ FirstClash claims c := by
  rintro ⟨before, after, rfl, -, hmem⟩
  exact h.ne_of_mem c.holder hmem

/-- Claims for different identifiers do not go on with a claim that clashes. -/
theorem AreApart.eq_nil_of_clash {before between after rest : List (String × String)}
    {ident name holder : String} (h : AreApart (before ++ between))
    (hmem : (ident, holder) ∈ before) (hrest : (ident, name) :: after = between ++ rest) :
    between = [] := by
  cases between with
  | nil => rfl
  | cons d between =>
    obtain ⟨rfl, -⟩ := List.cons.inj hrest
    exact absurd hmem (h.ne_of_mem holder)

/-- There is only one first clash. -/
theorem FirstClash.unique (h : FirstClash claims c) (h' : FirstClash claims c') : c = c' := by
  obtain ⟨before, after, rfl, hapart, hmem⟩ := h
  obtain ⟨before', after', hsplit, hapart', hmem'⟩ := h'
  have hbefore : before' = before := by
    rcases List.append_eq_append_iff.mp hsplit with ⟨between, rfl, hrest⟩ | ⟨between, rfl, hrest⟩
    · rw [hapart'.eq_nil_of_clash hmem hrest, List.append_nil]
    · rw [hapart.eq_nil_of_clash hmem' hrest, List.append_nil]
  subst hbefore
  obtain ⟨hclaim, -⟩ := List.cons.inj (List.append_cancel_left hsplit)
  obtain ⟨hident, hname⟩ := Prod.mk.inj hclaim
  rw [← hident] at hmem'
  have hholder : (c.ident, c.holder) = (c.ident, c'.holder) :=
    List.inj_on_of_nodup_map hapart hmem hmem' rfl
  cases c
  cases c'
  simp_all

/-- A claim that is free keeps the claims apart, and one that is taken clashes with its holder. -/
theorem AreApart.lookup_cases (h : AreApart taken) (ident : String) :
    (∃ holder, taken.reverse.lookup ident = some holder ∧ (ident, holder) ∈ taken) ∨
      taken.reverse.lookup ident = none ∧ ∀ name, AreApart (taken ++ [(ident, name)]) := by
  cases hlookup : taken.reverse.lookup ident with
  | some holder =>
    obtain ⟨before, after, hsplit, -⟩ := List.lookup_eq_some_iff.mp hlookup
    have hmem : (ident, holder) ∈ taken.reverse := by
      rw [hsplit]
      exact List.mem_append_right _ List.mem_cons_self
    exact Or.inl ⟨holder, rfl, List.mem_reverse.mp hmem⟩
  | none =>
    refine Or.inr ⟨rfl, fun name => ?_⟩
    unfold AreApart
    rw [List.map_append, List.map_singleton, List.nodup_append]
    refine ⟨h, List.nodup_singleton _, ?_⟩
    intro taker htaker ident' hident'
    rw [List.mem_singleton.mp hident']
    obtain ⟨claim, hclaim, rfl⟩ := List.mem_map.mp htaker
    have hne := List.lookup_eq_none_iff.mp hlookup claim (List.mem_reverse.mpr hclaim)
    rw [bne_iff_ne] at hne
    exact Ne.symm hne

/-! ### Settling -/

/-- The claim that a declaration makes. -/
def Declaration.claim (d : Declaration α) : String × String := (d.ident, d.name)

/-- The first collision in a scope of claims that do not clash is the first clash of these and the
claims of the declarations. -/
theorem head?_settle (h : AreApart taken) (ds : List (Declaration α)) :
    (settle taken.reverse ds).2.head? = some c ↔
      FirstClash (taken ++ ds.map Declaration.claim) c := by
  induction ds generalizing taken with
  | nil =>
    rw [settle_nil, List.map_nil, List.append_nil]
    exact iff_of_false (fun hhead => nomatch hhead) (not_firstClash h)
  | cons d ds ih =>
    rw [settle, List.map_cons]
    rcases h.lookup_cases d.ident with ⟨holder, hlookup, hmem⟩ | ⟨hlookup, happend⟩
    · -- the declaration is the first clash
      have hclash : FirstClash (taken ++ d.claim :: ds.map Declaration.claim)
          ⟨d.ident, d.name, holder⟩ := ⟨taken, _, rfl, h, hmem⟩
      rw [hlookup]
      constructor
      · intro hhead
        rw [← Option.some.inj hhead]
        exact hclash
      · intro hclash'
        rw [hclash'.unique hclash]
        rfl
    · -- the declaration is kept, and its claim is one of those made before the others
      have hapart : AreApart (taken ++ [d.claim]) := happend d.name
      have hscope : (d.ident, d.name) :: taken.reverse = (taken ++ [d.claim]).reverse := by
        rw [List.reverse_append]
        rfl
      rw [hlookup, List.append_cons, ← ih hapart, ← hscope]

/-- Declarations that have to be distinct fail with the first clash of their claims. -/
theorem requireDistinct_eq_error_iff {error : Collision → RenderError} {e : RenderError} :
    requireDistinct error ds = .error e ↔
      ∃ c, FirstClash (ds.map Declaration.claim) c ∧ e = error c := by
  have hnone : AreApart [] := List.nodup_nil
  have hhead : ∀ c, (collisions ds).head? = some c ↔ FirstClash (ds.map Declaration.claim) c :=
    fun c => head?_settle hnone ds
  simp only [← hhead]
  unfold requireDistinct
  cases collisions ds with
  | nil => simp
  | cons c cs => simp [eq_comm]

/-- Declarations that have to be distinct are distinct if no two of their claims clash. -/
theorem requireDistinct_eq_ok_iff_areApart {error : Collision → RenderError} {u : Unit} :
    requireDistinct error ds = .ok u ↔ AreApart (ds.map Declaration.claim) := by
  rw [requireDistinct_eq_ok_iff, AreApart, List.map_map]
  rfl

/-! ### The three checks -/

/-- The modules asked for by layers, as declarations. -/
def moduleDeclarations (ls : List LayerArtifact) : List (Declaration Unit) :=
  ls.map fun l => ⟨Text.snakeIdent l.id, l.id, ()⟩

/-- The modules of layers are made unless one is settled as a collision. -/
theorem result_layerModules (scope : Scope) (ls : List LayerArtifact) :
    (layerModules scope ls).result =
      match (settle scope (moduleDeclarations ls)).2 with
      | [] => .ok (ls.map layerModule)
      | c :: _ => .error (.sameModule c) := by
  induction ls generalizing scope with
  | nil => rfl
  | cons l ls ih =>
    have hident : (layerModule l).ident = Text.snakeIdent l.id := rfl
    rw [moduleDeclarations, List.map_cons, settle, layerModules]
    simp only [hident]
    cases scope.lookup (Text.snakeIdent l.id) with
    | some holder => rfl
    | none =>
      simp only [Traced.result_bind, Traced.result_emit, Traced.result_pure]
      rw [ih, moduleDeclarations]
      cases (settle ((Text.snakeIdent l.id, l.id) :: scope) _).2 <;> rfl

/-- The modules of layers are made if they are distinct. -/
theorem result_layerModules_nil (ls : List LayerArtifact) :
    (layerModules [] ls).result =
      (requireDistinct .sameModule (moduleDeclarations ls)).map fun _ => ls.map layerModule := by
  rw [result_layerModules]
  unfold requireDistinct collisions
  cases (settle [] (moduleDeclarations ls)).2 <;> rfl

theorem map_claim_moduleDeclarations (a : ArtifactSet) :
    (moduleDeclarations a.layers).map Declaration.claim = moduleClaims a := by
  rw [moduleDeclarations, List.map_map]
  rfl

theorem map_claim_typeDeclarations (a : ArtifactSet) :
    (typeDeclarations (elementTables a.tables)).map Declaration.claim = typeClaims a := by
  rw [typeDeclarations, List.map_flatMap]
  rfl

theorem map_claim_traitDeclarations (a : ArtifactSet) :
    (traitDeclarations a.fieldTypes).map Declaration.claim = traitClaims a := by
  rw [traitDeclarations, List.map_map]
  rfl

/-- Rendering code is three checks, one after the other. -/
theorem exists_result_render_code (a : ArtifactSet) :
    ∃ files : List RenderedFile, (Artifact.render .code a).result = do
      requireDistinct .sameModule (moduleDeclarations a.layers)
      requireDistinct .sameType (typeDeclarations (elementTables a.tables))
      requireDistinct .sameTrait (traitDeclarations a.fieldTypes)
      return files := by
  unfold Artifact.render Artifact.renderCode layerFile rowFile rowModule
  simp only [Traced.result_bind, Traced.result_ofExcept, Traced.result_pure,
    result_layerModules_nil]
  cases requireDistinct .sameModule (moduleDeclarations a.layers) with
  | error e => exact ⟨[], rfl⟩
  | ok _ =>
    cases requireDistinct .sameType (typeDeclarations (elementTables a.tables)) with
    | error e => exact ⟨[], rfl⟩
    | ok _ =>
      cases requireDistinct .sameTrait (traitDeclarations a.fieldTypes) with
      | error e => exact ⟨[], rfl⟩
      | ok _ => exact ⟨_, rfl⟩

/-- Artifacts are rendered as code exactly if the claims of each kind are apart. -/
theorem exists_render_iff (a : ArtifactSet) :
    (∃ files, (Artifact.render .code a).result = .ok files) ↔
      AreApart (moduleClaims a) ∧ AreApart (typeClaims a) ∧ AreApart (traitClaims a) := by
  obtain ⟨files, hrender⟩ := exists_result_render_code a
  rw [hrender]
  simp only [bind_eq_ok_iff, requireDistinct_eq_ok_iff_areApart, map_claim_moduleDeclarations,
    map_claim_typeDeclarations, map_claim_traitDeclarations]
  constructor
  · rintro ⟨files, -, hmodules, -, htypes, -, htraits, -⟩
    exact ⟨hmodules, htypes, htraits⟩
  · rintro ⟨hmodules, htypes, htraits⟩
    exact ⟨files, (), hmodules, (), htypes, (), htraits, rfl⟩

/-- Artifacts are rendered as code exactly if no two layers ask for one module, no two types are
asked for by one name, and no two fields ask for one accessor trait.  Otherwise the error is the
first claim that clashes, with the name that holds its identifier: layers come before types, and
types before traits. -/
theorem rendering_fails_exactly_on_first_clash (a : ArtifactSet) :
    ((∃ files, (Artifact.render .code a).result = .ok files) ↔
      AreApart (moduleClaims a) ∧ AreApart (typeClaims a) ∧ AreApart (traitClaims a)) ∧
    ∀ e, (Artifact.render .code a).result = .error e ↔ FirstFault a e := by
  refine ⟨exists_render_iff a, fun e => ?_⟩
  obtain ⟨files, hrender⟩ := exists_result_render_code a
  rw [hrender]
  simp only [bind_eq_error_iff, requireDistinct_eq_ok_iff_areApart, requireDistinct_eq_error_iff,
    map_claim_moduleDeclarations, map_claim_typeDeclarations, map_claim_traitDeclarations]
  constructor
  · rintro (⟨c, hclash, rfl⟩ | ⟨-, hmodules, ⟨c, hclash, rfl⟩ | ⟨-, htypes,
      ⟨c, hclash, rfl⟩ | ⟨-, -, hfiles⟩⟩⟩)
    · exact .modules hclash
    · exact .types hmodules hclash
    · exact .traits hmodules htypes hclash
    · cases hfiles
  · rintro (@⟨c, hclash⟩ | @⟨c, hmodules, hclash⟩ | @⟨c, hmodules, htypes, hclash⟩)
    · exact Or.inl ⟨c, hclash, rfl⟩
    · exact Or.inr ⟨(), hmodules, Or.inl ⟨c, hclash, rfl⟩⟩
    · exact Or.inr ⟨(), hmodules, Or.inr ⟨(), htypes, Or.inl ⟨c, hclash, rfl⟩⟩⟩

end TileSchema.Code
