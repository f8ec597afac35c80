import SpecAudit.Main
import SpecAudit.Proofs.Text.Search
import SpecAudit.Syntax.Table
import SpecAudit.Proofs.Spec.TitledHeading
import SpecAudit.Proofs.Spec.Balanced
import SpecAudit.Proofs.Spec.Place
import SpecAudit.Proofs.Spec.Insertion
import SpecAudit.Proofs.Audit.Promise
import SpecAudit.Proofs.Audit.Runs
import SpecAudit.Proofs.Audit.Existence
import SpecAudit.Proofs.Audit.Coverage
import SpecAudit.Proofs.Syntax.Occurrence
import SpecAudit.Proofs.Method.Chain
import SpecAudit.Proofs.Method.Weight
import SpecAudit.Proofs.Syntax.Table
import SpecAudit.Proofs.Path.RoundTrip
import SpecAudit.Proofs.Spec.CallForest
import SpecAudit.Proofs.Audit.Current
import SpecAudit.Proofs.Audit.Refusal
import SpecAudit.Proofs.Audit.FileScan
import SpecAudit.Proofs.Finding.Order
import SpecAudit.Proofs.Project.Way
import SpecAudit.Proofs.Project.Disk
import SpecAudit.Proofs.Project.Lookup
import SpecAudit.Proofs.Project.Discovery
import SpecAudit.Proofs.Audit.Scan
import SpecAudit.Proofs.Audit.Disabling
import SpecAudit.Proofs.Path.Nearest
import SpecAudit.Proofs.Path.Exclusion
import SpecAudit.Proofs.Project.Search
import SpecAudit.Proofs.Project.Reorder
import SpecAudit.Proofs.Project.Pruning
import SpecAudit.Proofs.Json.Number
import SpecAudit.Proofs.Json.RoundTrip
import SpecAudit.Proofs.Json.Reading
import SpecAudit.Proofs.Config.Saved
import SpecAudit.Proofs.Config.Change
import SpecAudit.Proofs.Project.Replacement
import SpecAudit.Proofs.Command.Arguments
import SpecAudit.Proofs.Command.ConfigChange
import SpecAudit.Proofs.Path.Below
import SpecAudit.Proofs.Project.Absolute
import SpecAudit.Proofs.Audit.Absolute
import SpecAudit.Config.Store
import SpecAudit.Proofs.Config.Repair
import SpecAudit.Proofs.Config.Listed
import SpecAudit.Proofs.Config.Sound
import SpecAudit.Proofs.Finding.Identifier
import SpecAudit.Proofs.Project.Ending
import SpecAudit.Proofs.Audit.Topic
import SpecAudit.Proofs.Audit.Identity
import SpecAudit.Proofs.Spec.Nesting
import SpecAudit.Proofs.Audit.Session
import SpecAudit.Proofs.Audit.Parity
import SpecAudit.Proofs.Command.ScanEnding
import SpecAudit.Proofs.Text.Indentation
import SpecAudit.Proofs.Spec.Indentation
import SpecAudit.Proofs.Spec.OpenerSearch
import SpecAudit.Proofs.Spec.BlockOpener
import SpecAudit.Proofs.Syntax.Layout
import SpecAudit.Proofs.Method.Visibility
import SpecAudit.Proofs.Syntax.Parentheses
import SpecAudit.Proofs.Method.Locality
import SpecAudit.Proofs.Method.UnsetGuard
import SpecAudit.Proofs.Method.Recast
import SpecAudit.Proofs.Method.RecastIdioms
import SpecAudit.Proofs.Method.RecastCount
import SpecAudit.Proofs.Spec.Outermost
import SpecAudit.Proofs.Spec.VerbSpelling
import SpecAudit.Proofs.Spec.VerbPhrase
import SpecAudit.Proofs.Spec.OtherName
import SpecAudit.Proofs.Spec.Mentions
import SpecAudit.Proofs.Audit.Unmentioned
import SpecAudit.Proofs.Config.Added
import SpecAudit.Proofs.Config.InPlace
import SpecAudit.Proofs.Path.Marker
import SpecAudit.Proofs.Syntax.Placement
import SpecAudit.Proofs.Text.LineFeeds
import SpecAudit.Proofs.Spec.CallPlace
import SpecAudit.Proofs.Preorder.Walk
import SpecAudit.Proofs.Preorder.Position
import SpecAudit.Proofs.Preorder.Listing
