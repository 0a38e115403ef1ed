import TreeShell.Host.Disk
import TreeShell.Main
import TreeShell.Proofs.Path.Parts
import TreeShell.Proofs.Path.Ancestors
import TreeShell.Proofs.Store.Change
import TreeShell.Proofs.Snapshot.Restore
import TreeShell.Proofs.Store.Nested
import TreeShell.Proofs.Store.Listing
import TreeShell.Proofs.Store.Mirror
import TreeShell.Proofs.Session.Rename
import TreeShell.Proofs.Json.Scalar
import TreeShell.Proofs.Json.Fields
import TreeShell.Proofs.Snapshot.RoundTrip
import TreeShell.Proofs.Session.Record
import TreeShell.Proofs.Session.Acts
import TreeShell.Proofs.Session.Fold
import TreeShell.Proofs.Image.Sealed
import TreeShell.Proofs.Json.Items
import TreeShell.Proofs.Image.RoundTrip
import TreeShell.Proofs.Session.Boot
import TreeShell.Proofs.Cli.Chain
import TreeShell.Proofs.Host.Disk
import TreeShell.Proofs.Path.WorkDir
import TreeShell.Proofs.Session.Directory
import TreeShell.Proofs.Session.Confined
import TreeShell.Proofs.Host.Quiet
import TreeShell.Proofs.Settings.Layers
import TreeShell.Proofs.Cli.Refused
import TreeShell.Proofs.Command.Grammar
import TreeShell.Proofs.Session.Pipeline
import TreeShell.Proofs.Session.Redirect
import TreeShell.Proofs.Session.Atomic
import TreeShell.Proofs.Store.Write
import TreeShell.Proofs.Store.Walk
import TreeShell.Proofs.Path.Moves
import TreeShell.Proofs.Session.Moves
import TreeShell.Proofs.Session.Entering
import TreeShell.Proofs.Store.Apart
import TreeShell.Proofs.Store.Undo
import TreeShell.Proofs.Session.Sieve
import TreeShell.Proofs.Session.Drift
import TreeShell.Proofs.Snapshot.Spellings
import TreeShell.Proofs.Session.Persisted
import TreeShell.Proofs.Session.OneLine
import TreeShell.Proofs.Cli.Piped
import TreeShell.Proofs.Cli.Named
import TreeShell.Proofs.Session.Branches
import TreeShell.Proofs.Path.Ascent
import TreeShell.Proofs.Session.Help
import TreeShell.Proofs.Settings.References
