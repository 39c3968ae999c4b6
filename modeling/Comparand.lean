import Comparand.Main
import Comparand.Namespace.Registry
import Comparand.Operand.Equivalence
import Comparand.Proofs.CanonicalText
import Comparand.Proofs.ClosedExpressions
import Comparand.Proofs.Denotation
import Comparand.Proofs.Equivalence
import Comparand.Proofs.EquivalenceClasses
import Comparand.Proofs.ExactIntegers
import Comparand.Proofs.Gaps
import Comparand.Proofs.JoinedSlices
import Comparand.Proofs.Lookups
import Comparand.Proofs.Membership
import Comparand.Proofs.Nesting
import Comparand.Proofs.NumberComparisons
import Comparand.Proofs.OwnSubsets
import Comparand.Proofs.Printing
import Comparand.Proofs.Refusals
import Comparand.Proofs.Registries
import Comparand.Proofs.Separators
import Comparand.Proofs.SourceSlices
import Comparand.Proofs.Stages
import Comparand.Proofs.Subsets
import Comparand.Proofs.UnboundTokens
import Comparand.Proofs.ViablePrefixes
import Comparand.Proofs.Words
import Comparand.Variable.Shared
