import RepairSearch.CommandLine.Run
import RepairSearch.Main
import RepairSearch.Project.Snapshot
import RepairSearch.Search.Run
import RepairSearch.Session.Basic
import RepairSearch.Shell.Launch
import RepairSearch.Proofs.Text.Encoding
import RepairSearch.Proofs.Text.Line
import RepairSearch.Proofs.Document.Move
import RepairSearch.Proofs.Document.Deletion
import RepairSearch.Proofs.Document.History
import RepairSearch.Proofs.Document.Undo
import RepairSearch.Proofs.Document.Place
import RepairSearch.Proofs.Document.Removal
import RepairSearch.Proofs.Document.Rollback
import RepairSearch.Proofs.Document.Force
import RepairSearch.Proofs.Document.Tracking
import RepairSearch.Proofs.Search.Rollback
import RepairSearch.Proofs.Search.Trace
import RepairSearch.Proofs.Search.Patches
import RepairSearch.Proofs.Mutation.Created
import RepairSearch.Proofs.Mutation.Family
import RepairSearch.Proofs.Text.Boundary
import RepairSearch.Proofs.Document.Fitting
import RepairSearch.Proofs.Document.Checked
import RepairSearch.Proofs.Search.Accounts
import RepairSearch.Proofs.Search.Streams
import RepairSearch.Proofs.Project.Upkeep
import RepairSearch.Proofs.Search.Errors
import RepairSearch.Proofs.Search.Recordings
import RepairSearch.Proofs.Files.Below
import RepairSearch.Proofs.Files.Name
import RepairSearch.Proofs.Project.Placement
import RepairSearch.Proofs.Session.Artifacts
import RepairSearch.Proofs.Json.Printed
import RepairSearch.Proofs.Session.Records
import RepairSearch.Proofs.Files.Saved
import RepairSearch.Proofs.Session.Saved
import RepairSearch.Proofs.Search.Quiet
import RepairSearch.Proofs.Files.Inside
import RepairSearch.Proofs.Document.Order
import RepairSearch.Proofs.Text.Lines
import RepairSearch.Proofs.Document.WholeLines
import RepairSearch.Proofs.Document.Replacement
import RepairSearch.Proofs.Files.Texts
import RepairSearch.Proofs.Project.Package
import RepairSearch.Proofs.Project.Snapshot
import RepairSearch.Proofs.Project.Mirror
import RepairSearch.Proofs.Syntax.Locate
import RepairSearch.Proofs.Syntax.Table
import RepairSearch.Proofs.Document.Literals
import RepairSearch.Proofs.Syntax.Growth
import RepairSearch.Proofs.Pool.Build
import RepairSearch.Proofs.Project.Discovery
import RepairSearch.Proofs.Project.Duplicate
import RepairSearch.Proofs.Command
