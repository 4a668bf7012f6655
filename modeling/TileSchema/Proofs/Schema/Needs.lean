import TileSchema.Proofs.Results
import TileSchema.Proofs.Schema.Crawl

/-!
# The documents that a crawl needs

A crawl needs the tileset, the document of every layer that the tileset lists and the mapping
documents that these layers refer to, each of the latter once.  Which documents these are is read
off the documents themselves, so they are a list computed from the source (`Source.needs`).

A crawl goes through this list until a document cannot be had (`Traced.Tries`), and fails with the
error of that document.  It is made of steps that ask for a document and steps that ask for nothing,
so two sources that agree on what one crawl asks for make both crawls do the same, and a source that
lacks some of it makes the other crawl fail (`Traced.Follows`).
-/

namespace TileSchema

open Ordered (Dict)

variable {source source' : Source} {root : String} {files refs : List String}
  {n : Need} {ns ms : List Need}

/-! ### Needs -/

/-- What a document is read as. -/
inductive DocumentKind where
  | tileset
  | layer
  | mapping
  deriving Repr, DecidableEq

/-- A document that is needed, and what it is read as. -/
structure Need where
  kind : DocumentKind
  reference : String
  deriving Repr, DecidableEq

namespace Source

/-- Why a document cannot be had, if so: it is not there, or it is not what it is read as. -/
def failure? (source : Source) (n : Need) : Option FetchError :=
  match n.kind with
  | .tileset => error? (source.read readTilesetDocument n.reference)
  | .layer => error? (source.read readLayerDocument n.reference)
  | .mapping => error? (source.read readMappingDocument n.reference)

/-- The mapping documents that the document of a layer refers to, if it can be had. -/
def referredFiles (source : Source) (layerFile : String) : List String :=
  match source.read readLayerDocument layerFile with
  | .ok doc => doc.datasources.filterMap (mappingFile? layerFile)
  | .error _ => []

/-- The documents that a tileset needs: those of its layers as listed, and the mapping documents
that they refer to as they are first referred to. -/
def needsOf (source : Source) (tileset : Tileset) : List Need :=
  tileset.layers.map (⟨.layer, ·⟩) ++
    (tileset.layers.flatMap source.referredFiles).eraseDups.map (⟨.mapping, ·⟩)

/-- The documents that a crawl from a root needs. -/
def needs (source : Source) (root : String) : List Need :=
  ⟨.tileset, root⟩ ::
    match source.read readTilesetDocument root with
    | .ok tileset => source.needsOf tileset
    | .error _ => []

/-- The documents that are tried when they are tried in order: those up to the first that cannot be
had. -/
def tried (source : Source) : List Need → List Need
  | [] => []
  | n :: ns => if (source.failure? n).isSome then [n] else n :: source.tried ns

/-- All documents are tried if they can be had, and then those behind them. -/
theorem tried_append_of_eq_none (h : ns.findSome? source.failure? = none) :
    source.tried (ns ++ ms) = ns ++ source.tried ms := by
  induction ns with
  | nil => rfl
  | cons n ns ih =>
    rw [List.findSome?_eq_none_iff, List.forall_mem_cons, ← List.findSome?_eq_none_iff] at h
    rw [List.cons_append, tried, h.1, ih h.2, Option.isSome_none, if_neg Bool.false_ne_true,
      List.cons_append]

theorem tried_eq_self (h : ns.findSome? source.failure? = none) : source.tried ns = ns := by
  have happend : source.tried (ns ++ []) = ns ++ source.tried [] := tried_append_of_eq_none h
  simpa [tried] using happend

/-- Nothing is tried behind a document that cannot be had. -/
theorem tried_append_of_eq_some {e : FetchError} (h : ns.findSome? source.failure? = some e) :
    source.tried (ns ++ ms) = source.tried ns := by
  induction ns with
  | nil => cases h
  | cons n ns ih =>
    rw [List.cons_append, tried, tried]
    cases hn : source.failure? n with
    | some e' => rfl
    | none =>
      rw [List.findSome?_cons, hn] at h
      rw [ih h]

end Source

/-! ### Trying one document after the other -/

namespace Traced

variable {α β : Type} {a : Traced FetchError α} {f : α → Traced FetchError β}

/-- A run tries documents in order: it has asked for those up to the first that cannot be had, and
fails with the error of that one. -/
structure Tries (a : Traced FetchError α) (source : Source) (ns : List Need) : Prop where
  error?_eq : error? a.result = ns.findSome? source.failure?
  requests_eq : requests a.events = (source.tried ns).map Need.reference

/-- Two steps try the documents of the first and then, if it has a result, those of the second. -/
theorem Tries.bind (ha : a.Tries source ns) (hf : ∀ x, a.result = .ok x → (f x).Tries source ms) :
    (a >>= f).Tries source (ns ++ ms) := by
  have hbind : (a >>= f) = andThen a f := rfl
  rw [hbind, andThen]
  cases hresult : a.result with
  | error e =>
    have hfirst : ns.findSome? source.failure? = some e := by rw [← ha.error?_eq, hresult]; rfl
    constructor
    · rw [List.findSome?_append, hfirst]
      rfl
    · rw [Source.tried_append_of_eq_some hfirst, ← ha.requests_eq]
  | ok x =>
    have hnone : ns.findSome? source.failure? = none := by rw [← ha.error?_eq, hresult]; rfl
    have hrest := hf x hresult
    constructor
    · rw [List.findSome?_append, hnone, Option.none_or, ← hrest.error?_eq]
    · have hfirst := ha.requests_eq
      rw [Source.tried_eq_self hnone] at hfirst
      rw [Source.tried_append_of_eq_none hnone, List.map_append, ← hfirst, ← hrest.requests_eq]
      exact List.filterMap_append

/-- A run that asks for nothing and does not fail tries nothing. -/
theorem Yields.tries {x : α} (h : a.Yields [] x) : a.Tries source [] where
  error?_eq := by rw [h.result_eq]; rfl
  requests_eq := h.requests_eq

end Traced

/-- Asking for a document tries it. -/
theorem Source.tries_load {α : Type} {reader : Reader α}
    (h : source.failure? n = error? (source.read reader n.reference)) :
    (source.load reader n.reference).Tries source [n] where
  error?_eq := by
    rw [Source.result_load, ← h, List.findSome?_cons, List.findSome?_nil]
    cases source.failure? n <;> rfl
  requests_eq := by
    have htried : source.tried [n] = [n] := by simp [Source.tried]
    rw [htried]
    simp [Source.load, Traced.requests, List.filterMap_map]

theorem tries_crawlLayers (source : Source) (files : List String) :
    (crawlLayers source files).Tries source (files.map (⟨.layer, ·⟩)) := by
  induction files with
  | nil => exact (Traced.yields_pure _).tries
  | cons file files ih =>
    have hload : (source.load readLayerDocument file).Tries source [⟨.layer, file⟩] :=
      source.tries_load (n := ⟨.layer, file⟩) rfl
    refine hload.bind fun doc _ => ?_
    rw [← List.nil_append (List.map _ files)]
    refine (mappingReferences_yields file doc.datasources).tries.bind fun _ _ => ?_
    rw [← List.append_nil (List.map _ files)]
    exact ih.bind fun _ _ => (Traced.yields_pure _).tries

theorem tries_crawlTables (source : Source) (tables : Dict TableSpec) (files : List String) :
    (crawlTables source tables files).Tries source (files.map (⟨.mapping, ·⟩)) := by
  induction files generalizing tables with
  | nil => exact (Traced.yields_pure _).tries
  | cons file files ih =>
    have hload : (source.load readMappingDocument file).Tries source [⟨.mapping, file⟩] :=
      source.tries_load (n := ⟨.mapping, file⟩) rfl
    exact hload.bind fun more _ => ih (tables.putAll more.entries)

/-- The loop over the layers finds the mapping documents that they refer to. -/
theorem refs_eq_of_crawlLayers {layers : List Layer}
    (h : (crawlLayers source files).result = .ok (layers, refs)) :
    refs = files.flatMap source.referredFiles := by
  obtain ⟨-, docs, hdocs, -, rfl⟩ := crawlLayers_yields ⟨h, rfl⟩
  clear h
  rw [mappingFiles]
  induction hdocs with
  | nil => rfl
  | @cons file doc files docs hdoc _ ih =>
    have hfile : source.referredFiles file = doc.datasources.filterMap (mappingFile? file) := by
      rw [Source.referredFiles, hdoc]
    rw [List.zip_cons_cons, List.flatMap_cons, List.flatMap_cons, ih, hfile]

/-- A crawl tries the documents that it needs. -/
theorem tries_crawl (source : Source) (root : String) :
    (crawl source root).Tries source (source.needs root) := by
  have hload : (source.load readTilesetDocument root).Tries source [⟨.tileset, root⟩] :=
    source.tries_load (n := ⟨.tileset, root⟩) rfl
  rw [Source.needs, ← List.singleton_append]
  refine hload.bind fun tileset htileset => ?_
  rw [Source.result_load] at htileset
  rw [htileset]
  refine (tries_crawlLayers source tileset.layers).bind fun ⟨layers, refs⟩ hlayers => ?_
  have hfiles : Ordered.distinct refs =
      (tileset.layers.flatMap source.referredFiles).eraseDups := by
    rw [refs_eq_of_crawlLayers hlayers, Ordered.distinct_eq_eraseDups]
  rw [← hfiles, ← List.append_nil (List.map _ (Ordered.distinct refs))]
  refine (tries_crawlTables source .empty (Ordered.distinct refs)).bind fun tables _ => ?_
  have hreport : ∀ message, (Traced.info message >>= fun _ =>
      (pure ⟨tileset, layers, tables⟩ : Traced FetchError Schema)).Yields [] ⟨tileset, layers, tables⟩ :=
    fun message => (Traced.yields_report .info message).bind (Traced.yields_pure _)
  exact (hreport _).tries

/-- A document that can be had is there. -/
theorem Source.exists_fetch_of_failure?_eq_none (h : source.failure? n = none) :
    ∃ v, source.fetch n.reference = .ok v := by
  have hfetch : ∀ {α : Type} {reader : Reader α}, error? (source.read reader n.reference) = none →
      ∃ v, source.fetch n.reference = .ok v := by
    intro α reader hnone
    obtain ⟨x, hx⟩ := error?_eq_none_iff.mp hnone
    obtain ⟨v, hv, -⟩ := bind_eq_ok_iff.mp hx
    exact ⟨v, hv⟩
  unfold failure? at h
  split at h <;> exact hfetch h

/-- All documents that a successful crawl asks for are there. -/
theorem exists_fetch_of_mem_requests {schema : Schema} {reference : String}
    (h : (crawl source root).result = .ok schema)
    (hmem : reference ∈ Traced.requests (crawl source root).events) :
    ∃ v, source.fetch reference = .ok v := by
  have htries := tries_crawl source root
  have hnone : (source.needs root).findSome? source.failure? = none := by
    rw [← htries.error?_eq, h]
    rfl
  rw [htries.requests_eq, Source.tried_eq_self hnone] at hmem
  obtain ⟨n, hn, rfl⟩ := List.mem_map.mp hmem
  exact Source.exists_fetch_of_failure?_eq_none (List.findSome?_eq_none_iff.mp hnone n hn)

/-! ### Sources that agree -/

/-- Two sources agree on documents. -/
def Source.AgreeOn (source source' : Source) (references : List String) : Prop :=
  ∀ reference ∈ references, source'.fetch reference = source.fetch reference

namespace Traced

variable {α β : Type} {a a' : Traced FetchError α} {f f' : α → Traced FetchError β}

/-- A run with another source, in which some documents that the first run asks for are missing but
no others are changed: it does the same if none of them is missing, and fails otherwise. -/
def Follows (source source' : Source) (a a' : Traced FetchError α) : Prop :=
  (∀ reference ∈ requests a.events, source'.fetch reference = source.fetch reference ∨
      ∃ e, source'.fetch reference = .error e) →
    (source.AgreeOn source' (requests a.events) ∧
      a'.result = a.result ∧ requests a'.events = requests a.events) ∨
    (¬ source.AgreeOn source' (requests a.events) ∧ ∃ e, a'.result = .error e)

/-- A run that needs no source. -/
theorem Follows.refl (h : requests a.events = []) : Follows source source' a a := by
  intro _
  refine .inl ⟨?_, rfl, rfl⟩
  rw [h]
  exact fun _ hmem => absurd hmem List.not_mem_nil

theorem requests_append (events events' : List Event) :
    requests (events ++ events') = requests events ++ requests events' := List.filterMap_append

/-- If the first step does the same, the second one starts with the same result. -/
theorem Follows.bind (ha : Follows source source' a a')
    (hf : ∀ x, Follows source source' (f x) (f' x)) :
    Follows source source' (a >>= f) (a' >>= f') := by
  intro hkept
  have hbind : (a >>= f) = andThen a f := rfl
  have hbind' : (a' >>= f') = andThen a' f' := rfl
  rw [hbind] at hkept ⊢
  rw [hbind', andThen, andThen]
  rw [andThen] at hkept
  cases hresult : a.result with
  | error e =>
    rw [hresult] at hkept
    rcases ha hkept with ⟨hagree, hsame, hrequests⟩ | ⟨hdiffer, e', hfail⟩
    · rw [hsame, hresult]
      exact .inl ⟨hagree, rfl, hrequests⟩
    · rw [hfail]
      exact .inr ⟨hdiffer, e', rfl⟩
  | ok x =>
    rw [hresult] at hkept
    rw [requests_append, List.forall_mem_append] at hkept
    dsimp only
    rw [requests_append, Source.AgreeOn, List.forall_mem_append]
    rcases ha hkept.1 with ⟨hagree, hsame, hrequests⟩ | ⟨hdiffer, e', hfail⟩
    · rw [hsame, hresult]
      dsimp only
      rw [requests_append]
      rcases hf x hkept.2 with ⟨hagree', hsame', hrequests'⟩ | ⟨hdiffer', e', hfail⟩
      · exact .inl ⟨⟨hagree, hagree'⟩, hsame', by rw [hrequests, hrequests']⟩
      · exact .inr ⟨fun h => hdiffer' h.2, e', hfail⟩
    · rw [hfail]
      exact .inr ⟨fun h => hdiffer h.1, e', rfl⟩

end Traced

open Traced (Follows)

theorem Source.follows_load {α : Type} (reader : Reader α) (reference : String) :
    Follows source source' (source.load reader reference) (source'.load reader reference) := by
  have hrequests : ∀ s : Source, Traced.requests (s.load reader reference).events = [reference] :=
    fun s => by simp [Source.load, Traced.requests, List.filterMap_map]
  intro hkept
  rw [hrequests, List.forall_mem_singleton] at hkept
  rw [hrequests, hrequests, AgreeOn, List.forall_mem_singleton, Source.result_load,
    Source.result_load, Source.read, Source.read]
  by_cases hagree : source'.fetch reference = source.fetch reference
  · exact .inl ⟨hagree, by rw [hagree], rfl⟩
  · obtain ⟨e, hfail⟩ := hkept.resolve_left hagree
    exact .inr ⟨hagree, e, by rw [hfail]; rfl⟩

theorem follows_crawlLayers (files : List String) :
    Follows source source' (crawlLayers source files) (crawlLayers source' files) := by
  induction files with
  | nil => exact .refl rfl
  | cons file files ih =>
    refine (Source.follows_load readLayerDocument file).bind fun doc => ?_
    have hfound := mappingReferences_yields file doc.datasources
    exact (Follows.refl hfound.requests_eq).bind fun _ => ih.bind fun _ => .refl rfl

theorem follows_crawlTables (tables : Dict TableSpec) (files : List String) :
    Follows source source' (crawlTables source tables files) (crawlTables source' tables files) := by
  induction files generalizing tables with
  | nil => exact .refl rfl
  | cons file files ih =>
    exact (Source.follows_load readMappingDocument file).bind fun more =>
      ih (tables.putAll more.entries)

/-- A crawl depends on the documents that it asks for, and on no others. -/
theorem follows_crawl (root : String) :
    Follows source source' (crawl source root) (crawl source' root) := by
  refine (Source.follows_load readTilesetDocument root).bind fun tileset => ?_
  refine (follows_crawlLayers tileset.layers).bind fun found => ?_
  exact (follows_crawlTables .empty (Ordered.distinct found.2)).bind fun _ => .refl rfl

/-- A crawl does the same with a source that agrees on the documents that it asks for. -/
theorem crawl_congr (h : source.AgreeOn source' (Traced.requests (crawl source root).events)) :
    (crawl source' root).result = (crawl source root).result ∧
      Traced.requests (crawl source' root).events = Traced.requests (crawl source root).events := by
  rcases follows_crawl root fun reference hmem => .inl (h reference hmem) with ⟨-, hsame⟩ | ⟨hdiffer, -⟩
  · exact hsame
  · exact absurd h hdiffer

/-! ### Main result -/

/-- A crawl reads the documents that it needs and stops at the first that cannot be had.  It succeeds
if and only if all of them can be had, and otherwise its error is that of the first that cannot.  It
asks for the documents up to that one and for no others, so a source which agrees on these gives the
same result, whatever else it holds. -/
theorem crawl_stops_at_first_failure (source : Source) (root : String) :
    ((∃ schema, (crawl source root).result = .ok schema) ↔
      ∀ n ∈ source.needs root, source.failure? n = none) ∧
    (∀ e, (crawl source root).result = .error e ↔
      ∃ before n after, source.needs root = before ++ n :: after ∧
        (∀ m ∈ before, source.failure? m = none) ∧ source.failure? n = some e) ∧
    Traced.requests (crawl source root).events =
      (source.tried (source.needs root)).map Need.reference ∧
    ∀ source' : Source, (∀ n ∈ source.tried (source.needs root),
        source'.fetch n.reference = source.fetch n.reference) →
      (crawl source' root).result = (crawl source root).result ∧
        Traced.requests (crawl source' root).events = Traced.requests (crawl source root).events := by
  have htries := tries_crawl source root
  refine ⟨?_, fun e => ?_, htries.requests_eq, fun source' hagree => ?_⟩
  · rw [← error?_eq_none_iff, htries.error?_eq, List.findSome?_eq_none_iff]
  · rw [← error?_eq_some_iff, htries.error?_eq, List.findSome?_eq_some_iff]
    constructor
    · rintro ⟨before, n, after, hneeds, hn, hbefore⟩
      exact ⟨before, n, after, hneeds, hbefore, hn⟩
    · rintro ⟨before, n, after, hneeds, hbefore, hn⟩
      exact ⟨before, n, after, hneeds, hn, hbefore⟩
  · apply crawl_congr
    rw [Source.AgreeOn, htries.requests_eq, List.forall_mem_map]
    exact hagree

end TileSchema
