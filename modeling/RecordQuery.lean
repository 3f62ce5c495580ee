import RecordQuery.Criterion.Field
import RecordQuery.Persisted.Criterion
import RecordQuery.Persisted.Directive
import RecordQuery.Proofs.ShortestDigits
import RecordQuery.Scope
import RecordQuery.Predicate.Builder
import RecordQuery.Proofs.Numerals
import RecordQuery.Proofs.Leaves
import RecordQuery.Proofs.KeyPaths
import RecordQuery.Proofs.Tokens
import RecordQuery.Proofs.Denotation
import RecordQuery.Proofs.Reading
import RecordQuery.Proofs.CanonicalText
import RecordQuery.Proofs.Accepted
import RecordQuery.Proofs.StrayMinus
import RecordQuery.Proofs.FixedPoint
import RecordQuery.Proofs.Comparison
import RecordQuery.Proofs.Meaning
import RecordQuery.Proofs.IntegerFields
import RecordQuery.Proofs.Atoms
import RecordQuery.Proofs.Bound
import RecordQuery.Proofs.Determined
import RecordQuery.Proofs.Admission
import RecordQuery.Proofs.Derivation
import RecordQuery.Proofs.CriterionText
import RecordQuery.Proofs.EqualText
import RecordQuery.Proofs.Spelling
import RecordQuery.Proofs.JsonText
import RecordQuery.Proofs.Encodings
import RecordQuery.Proofs.Persistence
import RecordQuery.Proofs.Collation
import RecordQuery.Proofs.Steps
import RecordQuery.Proofs.Locality
import RecordQuery.Proofs.Composition
import RecordQuery.Proofs.Building
import RecordQuery.Proofs.FormatOutcomes
import RecordQuery.Proofs.StableSorting
import RecordQuery.Proofs.Sorting
import RecordQuery.Proofs.Programs
import RecordQuery.Proofs.OwnContexts
import RecordQuery.Proofs.FieldMaps
import RecordQuery.Proofs.SuccessiveSorts
import RecordQuery.Proofs.Substitution
import RecordQuery.Proofs.CaseFolding
import RecordQuery.Proofs.SurfaceText
import RecordQuery.Proofs.OperatorLaws
import RecordQuery.Proofs.Representations
import RecordQuery.Proofs.SetEquality
import RecordQuery.Proofs.DocumentEquality
import RecordQuery.Proofs.EqualRecords
import RecordQuery.Proofs.EqualSets
import RecordQuery.Proofs.FieldMapOutcomes
