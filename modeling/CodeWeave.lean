import CodeWeave.Logging
import CodeWeave.Main
import CodeWeave.Record.Catalogue
import CodeWeave.Proofs.Redaction.Words
import CodeWeave.Proofs.Redaction.Names
import CodeWeave.Proofs.Redaction.Keys
import CodeWeave.Proofs.Redaction.Secrets
import CodeWeave.Proofs.Redaction.Addresses
import CodeWeave.Proofs.Redaction.Completeness
import CodeWeave.Proofs.Diff.Alignment
import CodeWeave.Proofs.Diff.Lossless
import CodeWeave.Proofs.Diff.LongestRun
import CodeWeave.Proofs.Diff.Canonical
import CodeWeave.Proofs.Diff.Overrides
import CodeWeave.Proofs.Deploy.Commit
import CodeWeave.Proofs.Deploy.Publish
import CodeWeave.Proofs.Deploy.Attempts
import CodeWeave.Proofs.Build.Planning
import CodeWeave.Proofs.Build.Replay
import CodeWeave.Proofs.Build.Account
import CodeWeave.Proofs.Build.Termination
import CodeWeave.Proofs.Text.Stretch
import CodeWeave.Proofs.Text.Count
import CodeWeave.Proofs.Text.Lines
import CodeWeave.Proofs.Synthesis.Provenance
import CodeWeave.Proofs.Synthesis.Tokens
import CodeWeave.Proofs.Redaction.Openings
import CodeWeave.Proofs.Synthesis.Leaks
import CodeWeave.Proofs.Build.Verdict
import CodeWeave.Proofs.Synthesis.Statements
import CodeWeave.Proofs.Disk.RoundTrip
import CodeWeave.Proofs.Synthesis.Precedence
import CodeWeave.Proofs.Synthesis.Resegment
import CodeWeave.Proofs.Synthesis.Interior
import CodeWeave.Proofs.Synthesis.Extraction
import CodeWeave.Proofs.Generation.Backends
import CodeWeave.Proofs.Redaction.Convergence
import CodeWeave.Proofs.Redaction.Effect
import CodeWeave.Proofs.Redaction.Quoting
import CodeWeave.Proofs.Diff.Sharing
import CodeWeave.Proofs.Generation.Chain
import CodeWeave.Proofs.Plan.Answers
import CodeWeave.Proofs.Plan.Failures
import CodeWeave.Proofs.Deploy.Refusals
import CodeWeave.Proofs.Diff.Printing
import CodeWeave.Proofs.CommandLine.DryRun
import CodeWeave.Proofs.CommandLine.Secrecy
