import TileSchema.Code.Notice
import TileSchema.Code.Rows
import TileSchema.Text.Repertoire

/-!
# The file of the rows

The lines of the second generated file: the traits and types that all rows share, the row types,
the accessor traits, the index of rows and the dispatch to subscribers.
-/

namespace TileSchema.Code

open Artifact (ArtifactSet)

/-! ### What all rows share -/

/-- The lines between the preamble and the row types. -/
def sharedLines (source : String) : List String :=
  ["//! OSM element parsers generated from the imposm3 table definitions in the",
    "//! OpenMapTiles schema " ++ Text.oneLine source ++ ".",
    "//!",
    "//! Each row type holds the typed columns imposm3 would store for an element.",
    "//! Every table whose mapping matches an element produces a row; there is no",
    "//! priority between tables. Layers subscribe to the rows they render",
    "//! through [\x60TableSubscriber\x60] and [\x60dispatch_map\x60].",
    "",
    lintLine,
    "",
    "use std::any::Any;",
    "use std::collections::HashMap;",
    "",
    expressionImports,
    "use crate::reader::\x7bFeatureCollector, SourceFeature\x7d;",
    "",
    "/// A parsed OSM element that would appear in a row of an imposm3 table.",
    "pub trait Row: WithSource \x7b",
    "    fn as_any(&self) -> &dyn Any;",
    "\x7d",
    "",
    "/// Builds a row from a source element and the mapping key that matched it.",
    "pub type Constructor = fn(&SourceFeature, &str) -> Box<dyn Row>;",
    "",
    "#[derive(Clone, Copy)]",
    "pub struct RowConstructor \x7b",
    "    pub table: &'static str,",
    "    pub create: Constructor,",
    "\x7d",
    "",
    "/// A layer's handler for one table, accepting any row and ignoring rows of",
    "/// other tables.",
    "pub type RowHandler<'a> = Box<dyn Fn(&dyn Row, &mut FeatureCollector) + 'a>;"]

/-! ### Row types -/

/-- The comment on a row type. -/
def rowDoc (table : String) : String :=
  "/// An OSM element that would appear in the \x60" ++ table ++ "\x60 table generated by imposm3."

/-- The structure of a row type. -/
def structureLines (r : RowDeclaration) : List String :=
  [rowDoc r.table,
    "#[derive(Debug, Clone)]",
    "pub struct " ++ r.rowType ++ " \x7b"] ++
  r.members.map (fun m => "    pub " ++ m.ident ++ ": " ++ m.type ++ ",") ++
  ["\x7d"]

/-- The table, the expression and the constructor of a row type. -/
def inherentLines (r : RowDeclaration) : List String :=
  ["impl " ++ r.rowType ++ " \x7b",
    "    pub const TABLE: &'static str = " ++ Text.quote r.table ++ ";",
    "",
    "    /// imposm3 \"mapping\" selecting the elements that appear in this table.",
    "    pub fn mapping() -> Expression \x7b",
    "        " ++ r.expression.text,
    "    \x7d",
    "",
    "    pub fn new(source: &SourceFeature, " ++ r.keyParameter ++ ": &str) -> Self \x7b",
    "        Self \x7b"] ++
  r.initializers.map (fun i => "            " ++ i.ident ++ ": " ++ i.value ++ ",") ++
  ["        \x7d",
    "    \x7d",
    "\x7d"]

/-- The row trait of a row type and the trait of its handlers. -/
def rowTraitLines (r : RowDeclaration) : List String :=
  ["impl Row for " ++ r.rowType ++ " \x7b",
    "    fn as_any(&self) -> &dyn Any \x7b",
    "        self",
    "    \x7d",
    "\x7d",
    "",
    "/// Layers implement this to receive [\x60" ++ r.rowType ++
      "\x60] rows through [\x60TableSubscriber\x60].",
    "pub trait " ++ r.handler ++ " \x7b",
    "    fn process(&self, element: &" ++ r.rowType ++ ", features: &mut FeatureCollector);",
    "\x7d"]

/-- The implementation of an accessor trait by a row type. -/
def accessorImplLines (rowType : String) (i : AccessorImpl) : List String :=
  ["",
    "impl " ++ i.trait ++ " for " ++ rowType ++ " \x7b",
    "    fn " ++ i.method ++ "(&self) -> " ++ i.type ++ " \x7b",
    "        " ++ i.body,
    "    \x7d",
    "\x7d"]

/-- All lines of a row type. -/
def RowDeclaration.lines (r : RowDeclaration) : List String :=
  "" :: structureLines r ++ "" :: inherentLines r ++ "" :: rowTraitLines r ++
    r.accessors.flatMap (accessorImplLines r.rowType)

/-! ### Traits and dispatch -/

/-- The comment on an accessor trait. -/
def accessorDoc (d : AccessorDeclaration) : String :=
  "/// Rows with a " ++ d.fieldType.name ++ " \x60" ++ d.field ++ "\x60 attribute."

/-- An accessor trait. -/
def AccessorDeclaration.lines (d : AccessorDeclaration) : List String :=
  ["",
    accessorDoc d,
    "pub trait " ++ d.trait ++ " \x7b",
    "    fn " ++ d.method ++ "(&self) -> " ++ d.type ++ ";",
    "\x7d"]

/-- An entry of the index of rows. -/
def entryLines (rowType : String) : List String :=
  ["        (",
    "            RowConstructor \x7b",
    "                table: " ++ rowType ++ "::TABLE,",
    "                create: |source, key| Box::new(" ++ rowType ++ "::new(source, key)),",
    "            \x7d,",
    "            " ++ rowType ++ "::mapping(),",
    "        ),"]

/-- The index of rows. -/
def indexLines (entries : List String) : List String :=
  ["",
    "/// Index choosing the tables an element belongs to from its tags. All matching",
    "/// entries apply.",
    "pub fn mappings() -> MultiExpression<RowConstructor> \x7b",
    "    MultiExpression::of(vec!["] ++
  entries.flatMap entryLines ++
  ["    ])",
    "\x7d"]

/-- A method of a subscriber. -/
def SubscriberMethod.lines (m : SubscriberMethod) : List String :=
  ["    fn " ++ m.method ++ "(&self) -> Option<&dyn " ++ m.handler ++ "> \x7b",
    "        None",
    "    \x7d"]

/-- Groups of lines with an empty line between any two. -/
def spaced : List (List String) → List String
  | [] => []
  | [g] => g
  | g :: gs => g ++ "" :: spaced gs

/-- The trait of subscribers. -/
def subscriberLines (methods : List SubscriberMethod) : List String :=
  ["",
    "/// Implemented by layers to subscribe to the tables they render. Each method",
    "/// returns the layer's handler for one table, or \x60None\x60 to skip that table.",
    "pub trait TableSubscriber \x7b"] ++
  spaced (methods.map SubscriberMethod.lines) ++
  ["\x7d"]

/-- A branch of the dispatch. -/
def DispatchBranch.lines (b : DispatchBranch) : List String :=
  ["        if let Some(handler) = subscriber." ++ b.method ++ "() \x7b",
    "            result.entry(" ++ b.rowType ++ "::TABLE).or_default().push(Box::new(",
    "                move |row: &dyn Row, features: &mut FeatureCollector| \x7b",
    "                    if let Some(row) = row.as_any().downcast_ref::<" ++ b.rowType ++
      ">() \x7b",
    "                        handler.process(row, features);",
    "                    \x7d",
    "                \x7d,",
    "            ));",
    "        \x7d"]

/-- The dispatch to subscribers. -/
def dispatchLines (branches : List DispatchBranch) : List String :=
  ["",
    "/// Map from table name to the handlers subscribed to it, in subscriber order.",
    "pub fn dispatch_map<'a>(",
    "    subscribers: &[&'a dyn TableSubscriber],",
    ") -> HashMap<&'static str, Vec<RowHandler<'a>>> \x7b",
    "    let mut result: HashMap<&'static str, Vec<RowHandler<'a>>> = HashMap::new();",
    "    for &subscriber in subscribers \x7b"] ++
  branches.flatMap DispatchBranch.lines ++
  ["    \x7d",
    "    result",
    "\x7d"]

/-! ### The file -/

/-- The lines of the file. -/
def rowFileLines (source : String) (m : RowModule) : List String :=
  preamble ++ sharedLines source ++ m.rows.flatMap RowDeclaration.lines ++
    m.accessors.flatMap AccessorDeclaration.lines ++ indexLines m.entries ++
    subscriberLines m.methods ++ dispatchLines m.branches

/-- The file of the rows. -/
def rowFile (a : ArtifactSet) : Except RenderError String := do
  let m ← rowModule a
  return unlines (rowFileLines a.source m)

end TileSchema.Code
