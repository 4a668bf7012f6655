/-!
# Faults of a YAML text

Everything that can be wrong with a text itself, before any meaning is given to its nodes.
-/

namespace TileSchema.Yaml

/-- Why a text is no YAML stream. -/
inductive Fault where
  /-- A character that no text may hold. -/
  | forbiddenCharacter
  /-- A character that starts no token. -/
  | strayCharacter
  /-- The text ends inside a token or a collection. -/
  | unexpectedEnd
  /-- A tab where only spaces indent. -/
  | tabIndentation
  /-- A key without its colon on the same line, or too far from it. -/
  | unfinishedKey
  /-- An entry, key or value where none may start. -/
  | misplacedIndicator
  /-- A document marker inside a quoted scalar. -/
  | markerInScalar
  /-- An escape that stands for no character. -/
  | badEscape
  /-- The line of a block scalar's indicators holds something else. -/
  | badBlockHeader
  /-- An anchor or alias without a name. -/
  | badAnchor
  /-- A tag that is not one. -/
  | badTag
  /-- A directive that is unknown, malformed or given twice. -/
  | badDirective
  /-- A tag handle that no directive declares. -/
  | undeclaredHandle
  /-- A token where a document should start. -/
  | missingDocumentStart
  /-- A token where a node should stand. -/
  | missingNode
  /-- A token that does not go on with the collection it stands in. -/
  | brokenCollection
  /-- An alias whose anchor has not been set. -/
  | unknownAlias
  /-- A mapping with two equal keys. -/
  | duplicateKey
  /-- Collections nested too deeply, as in a node that holds an alias of itself. -/
  | tooDeep
  /-- A scalar that its core tag does not admit. -/
  | badCoreScalar
  /-- An integer beyond sixty-four bits. -/
  | integerTooLarge
  deriving Repr, DecidableEq

end TileSchema.Yaml
