import FilterPushdown.Dialect.Quoting
import FilterPushdown.Fragment
import FilterPushdown.Journal
import FilterPushdown.Relation.Basic

/-!
Targets: where references are compiled for.  A target has one dialect and understands the datasets
of that dialect's engine only.  A reference that it cannot express is rejected with a reason; with
a logger, every rejection is a log call, and the relation is described for that call whatever the
logger's level.
-/

namespace FilterPushdown

/-- `EmbeddedQuotePolicy`: what becomes of an identifier in which the identifier quote occurs. -/
inductive QuotePolicy where
  | reject
  | escape
  deriving DecidableEq, Repr

/-- What a target can do. -/
inductive Capability where
  | sql
  deriving DecidableEq, Repr

/-- `ExpressionCapability`: the name of a capability. -/
def Capability.name : Capability → String
  | sql => "SQL"

/-- `SqlExpressionFactory`: a dialect with the choices that its user has made, and what stands for
those that were not made. -/
structure Target where
  dialect : Dialect := .bigQuery
  embeddedQuotes : QuotePolicy := .reject
  logger : Option Logger := none
  deriving DecidableEq

namespace Target

/-- `getSupportedCapability`, and `getType` with it: the one capability of a target. -/
def capability (_ : Target) : Capability := .sql

/-- `getCapabilities`: all capabilities of a target. -/
def capabilities (target : Target) : List Capability := [target.capability]

/-- `SqlExpressionFactory.compile`: a fragment from text that is trusted as it is. -/
def fragment (_ : Target) (sql : String) : Fragment := .valid sql

/-- The fields of the record of a rejection. -/
def rejectionFields (description : Value) (column : Option String) (reason : Reason) :
    List (String × Value) :=
  ("relation", description) ::
    ((column.toList.map fun name => ("column", .text name)) ++
      [("reason", .text reason.message)])

/-- `SqlExpressionFactory.reject`: rejects a reference to a relation, or to one of its columns. -/
def reject (target : Target) (reason : Reason) (relation : Relation) (column : Option String) :
    Logged Value.Indescribable Fragment :=
  match target.logger with
  | none => pure (.invalid reason)
  | some logger => do
    let description ← Logged.ofExcept relation.describe
    Logged.tell (logger.write .debug (rejectionFields description column reason)
      "Rejected SQL reference")
    return .invalid reason

/-- `qualifyReference`: an identifier in quotes.  One that holds the quote is escaped or rejected,
as the policy says. -/
def qualify (target : Target) (identifier : String) (relation : Relation)
    (column : Option String) : Logged Value.Indescribable Fragment :=
  if identifier.toList.contains target.dialect.identifierQuote then
    match target.embeddedQuotes with
    | .escape =>
      pure (.valid (target.dialect.quoteIdentifier (target.dialect.escapeIdentifier identifier)))
    | .reject =>
      target.reject
        (.embeddedQuote identifier (String.singleton target.dialect.identifierQuote))
        relation column
  else pure (.valid (target.dialect.quoteIdentifier identifier))

/-- `getQualifiedDatasetName`: the quoted name of a dataset. -/
def datasetName (target : Target) (relation : Relation) :
    Logged Value.Indescribable Fragment :=
  match relation.resolve? target.dialect.engine with
  | none => target.reject .unsupportedRelation relation none
  | some dataset => target.qualify dataset.identifier relation none

/-- `getQualifiedColumnName`: the quoted name of a column that a dataset exposes. -/
def columnName (target : Target) (relation : Relation) (column : String) :
    Logged Value.Indescribable Fragment :=
  match relation.resolve? target.dialect.engine with
  | none => target.reject .unsupportedRelation relation (some column)
  | some dataset =>
    if column ∈ dataset.columns then target.qualify column relation (some column)
    else target.reject (.missingColumn column) relation (some column)

end Target

end FilterPushdown
