import BranchCoverage.Text.Blank
import BranchCoverage.Text.Digit
import BranchCoverage.Text.Line
import BranchCoverage.Text.Utf8
import BranchCoverage.Number.Text
import BranchCoverage.Name
import BranchCoverage.Branch.Basic
import BranchCoverage.CaseTree.Analysis
import BranchCoverage.RuntimeName
import BranchCoverage.Profile.Marker
import BranchCoverage.Attribution
import BranchCoverage.Coverage.Rate
import BranchCoverage.Coverage.Exclusion
import BranchCoverage.Json.Document
import BranchCoverage.Config
import BranchCoverage.Run.Directory
import BranchCoverage.CommandLine.Command
import BranchCoverage.Main
import BranchCoverage.Proofs.RuntimeName.Escape
import BranchCoverage.Proofs.RuntimeName.Injective
import BranchCoverage.Proofs.Attribution.Selection
import BranchCoverage.Proofs.Profile.LineSums
import BranchCoverage.Proofs.Profile.Titles
import BranchCoverage.Proofs.Attribution.Share
import BranchCoverage.Proofs.Attribution.Partition
import BranchCoverage.Proofs.Coverage.Share
import BranchCoverage.Proofs.Coverage.Evidence
import BranchCoverage.Proofs.Coverage.Targets
import BranchCoverage.Proofs.Coverage.Balance
import BranchCoverage.Proofs.Coverage.Merge
import BranchCoverage.Proofs.CaseTree.Scan
import BranchCoverage.Proofs.CaseTree.RoundTrip
import BranchCoverage.Proofs.Name
import BranchCoverage.Proofs.CaseTree.Identity
import BranchCoverage.Proofs.CaseTree.OperatorName
import BranchCoverage.Proofs.Run.Pairing
import BranchCoverage.Proofs.Attribution.Ownership
import BranchCoverage.Proofs.CaseTree.Separator
import BranchCoverage.Proofs.Report.Exclusion
import BranchCoverage.Proofs.CaseTree.Kind
import BranchCoverage.Proofs.Coverage.Baseline
import BranchCoverage.Proofs.Profile.Definitions
import BranchCoverage.Proofs.Attribution.Emitted
import BranchCoverage.Proofs.Text.Occurrence
import BranchCoverage.Proofs.CaseTree.Shape
import BranchCoverage.Proofs.Profile.Fields
import BranchCoverage.Proofs.Profile.Markup
import BranchCoverage.Proofs.Profile.Grouping
import BranchCoverage.Proofs.Run.Observation
import BranchCoverage.Proofs.Run.Contribution
import BranchCoverage.Proofs.RuntimeName.Hyphen
import BranchCoverage.Proofs.Coverage.CanonicalHits
import BranchCoverage.Proofs.Run.Idle
import BranchCoverage.Proofs.Report.IndexRanges
import BranchCoverage.Proofs.Report.GeneratedNames
import BranchCoverage.Proofs.Coverage.Unmapped
import BranchCoverage.Proofs.Coverage.BlankArtifacts
import BranchCoverage.Proofs.Text.Lines
import BranchCoverage.Proofs.CaseTree.LineByLine
import BranchCoverage.Proofs.Profile.Numbering
