import LintTriage.Json
import LintTriage.Location
import LintTriage.Settings
import LintTriage.Severity
import LintTriage.RulesFolder
import LintTriage.RuleBook
import LintTriage.Finding
import LintTriage.FixTable
import LintTriage.FixIndex
import LintTriage.Proofs.Numeral
import LintTriage.Proofs.SiteKey
import LintTriage.Proofs.Json.Compact
import LintTriage.Proofs.Json.Same
import LintTriage.Proofs.Fix.Encoding
import LintTriage.Proofs.Location.Decoding
import LintTriage.Proofs.Location.FirstFailure
import LintTriage.Proofs.Settings.Reading
import LintTriage.Proofs.Settings.RoundTrip
import LintTriage.Proofs.Settings.Report
import LintTriage.Proofs.Settings.Independence
import LintTriage.Proofs.RuleBook.Lookup
import LintTriage.Proofs.Publisher.Run
import LintTriage.Proofs.Finding.Gating
import LintTriage.Proofs.Finding.Enabled
import LintTriage.Proofs.Severity.Spelling
import LintTriage.Proofs.Path.Names
import LintTriage.Proofs.Path.Reduction
import LintTriage.Proofs.Path.Normal
import LintTriage.Proofs.RulesFolder.Installed
import LintTriage.Proofs.RulesFolder.Override
import LintTriage.Proofs.FixTable.Search
import LintTriage.Proofs.FixTable.Offered
import LintTriage.Proofs.FixTable.Position
import LintTriage.Proofs.Text.ByteOrder
import LintTriage.Proofs.FixTable.Arrangement
import LintTriage.Proofs.FixTable.Plan
import LintTriage.Proofs.FixTable.Version
import LintTriage.Proofs.FixTable.Dropped
import LintTriage.Proofs.FixTable.Removal
import LintTriage.Proofs.FixIndex.Log
import LintTriage.Proofs.FixIndex.Run
import LintTriage.Proofs.FixIndex.Accounting
import LintTriage.Proofs.FixIndex.Offered
import LintTriage.Proofs.FixIndex.Selection
import LintTriage.Proofs.FixIndex.Interleaving
import LintTriage.Proofs.FixIndex.Growth
import LintTriage.Proofs.Finding.Isolation
import LintTriage.Proofs.Finding.SmallBatch
import LintTriage.Proofs.Finding.Revision
