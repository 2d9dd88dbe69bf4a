import TypedConfig.Converter
import TypedConfig.Deferred
import TypedConfig.Dict
import TypedConfig.Document
import TypedConfig.Error
import TypedConfig.Expression.Evaluation
import TypedConfig.Expression.Syntax
import TypedConfig.Expression.Token
import TypedConfig.FieldType
import TypedConfig.Mapping
import TypedConfig.Number.Binary
import TypedConfig.Number.Decimal
import TypedConfig.Number.Long
import TypedConfig.Number.Shortest
import TypedConfig.Path
import TypedConfig.Proofs.Arranged
import TypedConfig.Proofs.Collect
import TypedConfig.Proofs.Colliding
import TypedConfig.Proofs.Dict
import TypedConfig.Proofs.Distinct
import TypedConfig.Proofs.Embedding
import TypedConfig.Proofs.Equality
import TypedConfig.Proofs.Error.Annotation
import TypedConfig.Proofs.Error.Cause
import TypedConfig.Proofs.Error.Failing
import TypedConfig.Proofs.Error.Location
import TypedConfig.Proofs.Error.Origin
import TypedConfig.Proofs.Error.Plain
import TypedConfig.Proofs.Error.Raised
import TypedConfig.Proofs.Error.Undecided
import TypedConfig.Proofs.Expression.Arithmetic
import TypedConfig.Proofs.Expression.Binding
import TypedConfig.Proofs.Expression.Comparison
import TypedConfig.Proofs.Expression.Faithful
import TypedConfig.Proofs.Expression.Lexing
import TypedConfig.Proofs.Expression.Numeral
import TypedConfig.Proofs.Expression.Parsing
import TypedConfig.Proofs.Expression.Rendering
import TypedConfig.Proofs.Extension
import TypedConfig.Proofs.FirstOccurrences
import TypedConfig.Proofs.Flattening
import TypedConfig.Proofs.Later
import TypedConfig.Proofs.Number.Finite
import TypedConfig.Proofs.Once
import TypedConfig.Proofs.Path
import TypedConfig.Proofs.Placement
import TypedConfig.Proofs.Pointwise
import TypedConfig.Proofs.Registrations
import TypedConfig.Proofs.Relocation
import TypedConfig.Proofs.Resolution
import TypedConfig.Proofs.Run
import TypedConfig.Proofs.Scalar.WholeNumber
import TypedConfig.Proofs.Settling
import TypedConfig.Proofs.Store.Canonical
import TypedConfig.Proofs.Store.Comments
import TypedConfig.Proofs.Store.Commuting
import TypedConfig.Proofs.Store.Order
import TypedConfig.Proofs.Store.Reloading
import TypedConfig.Proofs.Store.Sets
import TypedConfig.Proofs.Store.Spelling
import TypedConfig.Proofs.Store.Writing
import TypedConfig.Proofs.Substitution
import TypedConfig.Proofs.Termination
import TypedConfig.Proofs.Turns
import TypedConfig.Proofs.Typing
import TypedConfig.Resolution
import TypedConfig.Resolved
import TypedConfig.Scalar
import TypedConfig.Scalar.Coercion
import TypedConfig.Scalar.Native
import TypedConfig.Section
import TypedConfig.Shape
import TypedConfig.Store
import TypedConfig.Store.Loading
import TypedConfig.Text
import TypedConfig.Text.Invisible
import TypedConfig.Value
import TypedConfig.Value.Text
