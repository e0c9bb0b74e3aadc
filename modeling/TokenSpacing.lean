import TokenSpacing.Draft
import TokenSpacing.Fixture.Verification
import TokenSpacing.Main
import TokenSpacing.Proofs.Lines
import TokenSpacing.Proofs.Utf8
import TokenSpacing.Proofs.Coordinates
import TokenSpacing.Proofs.Conversion
import TokenSpacing.Proofs.Adjacency
import TokenSpacing.Proofs.Expressions
import TokenSpacing.Proofs.Scanning
import TokenSpacing.Proofs.TestedToken
import TokenSpacing.Proofs.Findings
import TokenSpacing.Proofs.SpaceAfter
import TokenSpacing.Proofs.SpaceBefore
import TokenSpacing.Proofs.ForHeaders
import TokenSpacing.Proofs.Safety
import TokenSpacing.Proofs.MemberSelects
import TokenSpacing.Proofs.Parents
import TokenSpacing.Proofs.Leaves
import TokenSpacing.Proofs.Issues
import TokenSpacing.Proofs.Switches
import TokenSpacing.Proofs.LineEndings
import TokenSpacing.Proofs.Comments
import TokenSpacing.Proofs.Openings
import TokenSpacing.Proofs.Dimensions
import TokenSpacing.Proofs.Selection
import TokenSpacing.Proofs.Matching
import TokenSpacing.Proofs.Reports
import TokenSpacing.Proofs.SettingsFiles
import TokenSpacing.Proofs.Json
import TokenSpacing.Proofs.CommandOutcome
import TokenSpacing.Proofs.Arguments
import TokenSpacing.Proofs.Overrides
import TokenSpacing.Proofs.Precedence
import TokenSpacing.Proofs.Faults
import TokenSpacing.Proofs.Undecodable
import TokenSpacing.Proofs.AcceptedOverrides
import TokenSpacing.Proofs.Operators
import TokenSpacing.Proofs.Spellings
import TokenSpacing.Proofs.NearestSettings
import TokenSpacing.Proofs.WrittenExpectations
import TokenSpacing.Proofs.Ends
import TokenSpacing.Proofs.WellFormedText
import TokenSpacing.Proofs.GeneratedSources
import TokenSpacing.Proofs.FileNames
import TokenSpacing.Proofs.WrittenCorpus
import TokenSpacing.Proofs.Building
