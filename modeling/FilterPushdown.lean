import FilterPushdown.Proofs.Compilation.ColumnMembership
import FilterPushdown.Proofs.Compilation.FilterErrors
import FilterPushdown.Proofs.Compilation.NumericFilter
import FilterPushdown.Proofs.Compilation.QuotePolicy
import FilterPushdown.Proofs.Dialect.EscapedIdentifier
import FilterPushdown.Proofs.Filter.Composition
import FilterPushdown.Proofs.Filter.Conversion
import FilterPushdown.Proofs.Journal.Rejections
import FilterPushdown.Proofs.Relation.ColumnHistory
import FilterPushdown.Proofs.Sql.BigQueryReference
import FilterPushdown.Proofs.Sql.DoubledQuote
import FilterPushdown.Proofs.Sql.ReadBack
import FilterPushdown.Proofs.Sql.StringLiteral
import FilterPushdown.Proofs.Sql.Unambiguous
import FilterPushdown.Proofs.Sql.WildcardCollision
import FilterPushdown.Proofs.Statement
import FilterPushdown.Session
