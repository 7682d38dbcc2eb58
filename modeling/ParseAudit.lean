import ParseAudit.Main
import ParseAudit.Report.Golden
import ParseAudit.Script.StandIn
import ParseAudit.Proofs.Line.Record
import ParseAudit.Proofs.Scan.Decoding
import ParseAudit.Proofs.Invocation.Modes
import ParseAudit.Proofs.Check.Soundness
import ParseAudit.Proofs.Scan.Accounting
import ParseAudit.Proofs.Audit.Exactness
import ParseAudit.Proofs.Audit.Findings
import ParseAudit.Proofs.Calls
import ParseAudit.Proofs.Invocation.Budget
import ParseAudit.Proofs.Check.Handover
import ParseAudit.Proofs.RepoPath.Twice
import ParseAudit.Proofs.RepoPath.Reanchored
import ParseAudit.Proofs.RepoPath.Spelling
import ParseAudit.Proofs.RepoPath.Canonical
import ParseAudit.Proofs.Selection.Coverage
import ParseAudit.Proofs.Selection.Echo
import ParseAudit.Proofs.Selection.ListFile
import ParseAudit.Proofs.Selection.Meaning
import ParseAudit.Proofs.Settings.Patterns
import ParseAudit.Proofs.Audit.Rearranged
import ParseAudit.Proofs.Publish.JobOutput
import ParseAudit.Proofs.Report.Artifact
import ParseAudit.Proofs.Audit.Allowlist
import ParseAudit.Proofs.Audit.Fingerprints
import ParseAudit.Proofs.Check.Course
import ParseAudit.Proofs.Command.Agreement
import ParseAudit.Proofs.Scan.FirstMalformed
import ParseAudit.Proofs.Scan.PlainNames
import ParseAudit.Proofs.Line.LastCandidate
import ParseAudit.Proofs.Render.Capped
import ParseAudit.Proofs.Scan.Layout
import ParseAudit.Proofs.Settings.Values
import ParseAudit.Proofs.Report.Golden
import ParseAudit.Proofs.Audit.Partition
