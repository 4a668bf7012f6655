import TileSchema.Ordered.TextSet
import TileSchema.Schema.Reference
import TileSchema.Schema.Source

/-!
# Crawling a schema

A schema is read from its root: the tileset, then its layers in the order listed, then the mapping
documents that their data sources refer to, each once, in the order in which they were first
referred to.  A table that several mapping documents define keeps its first place and has its last
definition.
-/

namespace TileSchema

open Ordered (Dict)

/-- The reference of the root document. -/
def rootReference : String := "openmaptiles.yaml"

/-- The mapping documents that the data sources of a layer refer to, with the complaints about the
others. -/
def mappingReferences (layerFile : String) : List Datasource → Traced FetchError (List String)
  | [] => pure []
  | d :: ds => do
    if d.kind = mappedKind then
      match d.mappingFile with
      | some file =>
        let rest ← mappingReferences layerFile ds
        return Reference.resolve layerFile file :: rest
      | none =>
        .warn (mappedKind ++ " datasource without mapping_file in " ++ layerFile)
        mappingReferences layerFile ds
    else
      .warn ("Unknown datasource type: " ++ d.kind ++ " in " ++ layerFile)
      mappingReferences layerFile ds

/-- The layers of documents in order, and all the mapping documents they refer to. -/
def crawlLayers (source : Source) : List String → Traced FetchError (List Layer × List String)
  | [] => pure ([], [])
  | file :: files => do
    let doc ← source.load readLayerDocument file
    let refs ← mappingReferences file doc.datasources
    let (layers, rest) ← crawlLayers source files
    return (doc.layer :: layers, refs ++ rest)

/-- The tables with those of mapping documents added in order. -/
def crawlTables (source : Source) (tables : Dict TableSpec) :
    List String → Traced FetchError (Dict TableSpec)
  | [] => pure tables
  | file :: files => do
    let more ← source.load readMappingDocument file
    crawlTables source (tables.putAll more.entries) files

/-- The schema of a root document. -/
def crawl (source : Source) (root : String) : Traced FetchError Schema := do
  let tileset ← source.load readTilesetDocument root
  let (layers, refs) ← crawlLayers source tileset.layers
  let files := Ordered.distinct refs
  let tables ← crawlTables source .empty files
  .info ("Schema " ++ tileset.name ++ " " ++ tileset.version ++ ": " ++ toString layers.length ++
    " layers, " ++ toString files.length ++ " mapping files, " ++ toString tables.size ++ " tables")
  return ⟨tileset, layers, tables⟩

end TileSchema
