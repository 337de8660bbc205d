import FeatureFlags.Host.Adapter
import FeatureFlags.Main
import FeatureFlags.Proofs.FileTree
import FeatureFlags.Proofs.FileRefresh
import FeatureFlags.Proofs.Refreshes
import FeatureFlags.Proofs.Matching
import FeatureFlags.Proofs.Batch
import FeatureFlags.Proofs.Membership
import FeatureFlags.Proofs.Rounding
import FeatureFlags.Proofs.Arithmetic
import FeatureFlags.Proofs.Nearest
import FeatureFlags.Proofs.Buckets
import FeatureFlags.Proofs.Served
import FeatureFlags.Proofs.Shares
import FeatureFlags.Proofs.Allocation
import FeatureFlags.Proofs.FullAllocation
import FeatureFlags.Proofs.VariantReading
import FeatureFlags.Proofs.BooleanReading
import FeatureFlags.Proofs.FirstFault
import FeatureFlags.Proofs.SnapshotIndex
import FeatureFlags.Proofs.ListForm
import FeatureFlags.Proofs.Grammar
import FeatureFlags.Proofs.Written
import FeatureFlags.Proofs.HostAnswers
import FeatureFlags.Proofs.Numerals
import FeatureFlags.Proofs.Reading
import FeatureFlags.Proofs.Courses
import FeatureFlags.Proofs.Members
import FeatureFlags.Proofs.RoundTrip
import FeatureFlags.Proofs.Delivered
import FeatureFlags.Proofs.Resources
import FeatureFlags.Proofs.Tenancy
import FeatureFlags.Proofs.Influence
import FeatureFlags.Proofs.Risks
import FeatureFlags.Proofs.Growth
import FeatureFlags.Proofs.WellFormed
import FeatureFlags.Proofs.Placeless
import FeatureFlags.Proofs.Inline
import FeatureFlags.Proofs.Isolation
import FeatureFlags.Proofs.LastError
import FeatureFlags.Proofs.Opposites
import FeatureFlags.Proofs.ShortCircuit
import FeatureFlags.Proofs.Combination
import FeatureFlags.Proofs.Nesting
import FeatureFlags.Proofs.Records
import FeatureFlags.Proofs.Values
import FeatureFlags.Proofs.Requests
import FeatureFlags.Proofs.RequestLists
import FeatureFlags.Proofs.Alterations
import FeatureFlags.Proofs.Newer
import FeatureFlags.Proofs.Precedence
import FeatureFlags.Proofs.Arguments
import FeatureFlags.Proofs.RequestTexts
import FeatureFlags.Proofs.Program
