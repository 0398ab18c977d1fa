import DegreeProgress.Main
import DegreeProgress.Proofs.Rule.Bits
import DegreeProgress.Proofs.Rule.Windows
import DegreeProgress.Proofs.FirstRows
import DegreeProgress.Proofs.Graph.Log
import DegreeProgress.Proofs.Catalog.Compiled
import DegreeProgress.Proofs.Allocation.Candidates
import DegreeProgress.Proofs.Allocation.Graphs
import DegreeProgress.Proofs.Allocation.Contest
import DegreeProgress.Proofs.Allocation.Bracketing
import DegreeProgress.Proofs.Allocation.Shared
import DegreeProgress.Proofs.Allocation.Ties
import DegreeProgress.Proofs.Allocation.Sharing
import DegreeProgress.Proofs.Allocation.ByHand
import DegreeProgress.Proofs.Allocation.Reordered
import DegreeProgress.Proofs.Audit.Report
import DegreeProgress.Proofs.Audit.Groups
import DegreeProgress.Proofs.Audit.EntryIds
import DegreeProgress.Proofs.Audit.Bounds
import DegreeProgress.Proofs.Audit.CountedOnce
import DegreeProgress.Proofs.Audit.Reordered
import DegreeProgress.Proofs.Audit.Overrides
import DegreeProgress.Proofs.Audit.Precedence
import DegreeProgress.Proofs.Audit.NoEquivalent
import DegreeProgress.Proofs.Expression.Grammar
import DegreeProgress.Proofs.Expression.Parsing
import DegreeProgress.Proofs.Course.Pattern
import DegreeProgress.Proofs.Course.CallForm
import DegreeProgress.Proofs.Catalog.WellFormed
import DegreeProgress.Proofs.Catalog.Shape
import DegreeProgress.Proofs.Audit.Shape
import DegreeProgress.Proofs.Graph.Calls
import DegreeProgress.Proofs.Student.Edits
import DegreeProgress.Proofs.Audit.StaleData
import DegreeProgress.Proofs.Audit.Immaterial
import DegreeProgress.Proofs.Allocation.DangerousRows
import DegreeProgress.Proofs.Audit.Agreement
import DegreeProgress.Proofs.Student.FirstMajor
import DegreeProgress.Proofs.Audit.Coverage
import DegreeProgress.Proofs.Audit.KeptOut
import DegreeProgress.Proofs.Text.Bytes
import DegreeProgress.Proofs.Text.Spelling
import DegreeProgress.Proofs.Course.CanonicalText
import DegreeProgress.Proofs.Course.Respelled
import DegreeProgress.Proofs.Audit.Respelled
import DegreeProgress.Proofs.Audit.ExamRows
import DegreeProgress.Proofs.Rule.Preorder
import DegreeProgress.Proofs.Course.Shorthand
import DegreeProgress.Proofs.Audit.Eligibility
import DegreeProgress.Proofs.Expression.Positions
import DegreeProgress.Proofs.Settings.Colleges
import DegreeProgress.Proofs.Data.Files
