import ContentTree.Bytes
import ContentTree.Text.Printable
import ContentTree.Text.Quoted
import ContentTree.Text.Hex
import ContentTree.Digest.Sha256
import ContentTree.Digest.Crc32
import ContentTree.Decimal.Shortest
import ContentTree.Collection.OrderedMap
import ContentTree.Collection.NameSet
import ContentTree.Format.MessagePack
import ContentTree.Config
import ContentTree.Item.State
import ContentTree.Operation
import ContentTree.References
import ContentTree.Encoding.Change
import ContentTree.Encoding.Observation
import ContentTree.Encoding.Settings
import ContentTree.ChangeLog
import ContentTree.Cache
import ContentTree.Provider
import ContentTree.Session.Commit
import ContentTree.Proofs.Text.Hex
import ContentTree.Proofs.Workspace.Failure
import ContentTree.Proofs.Workspace.Success
import ContentTree.Proofs.Disk.Device
import ContentTree.Proofs.Encoding.Change
import ContentTree.Proofs.Persistence.Answers
import ContentTree.Proofs.Persistence.Atomicity
import ContentTree.Proofs.Disk.Spared
import ContentTree.Proofs.Persistence.Blocked
import ContentTree.Proofs.Persistence.Agreement
import ContentTree.Proofs.Persistence.Appending
import ContentTree.Proofs.Workspace.Coherence
import ContentTree.Proofs.Workspace.Sharing
import ContentTree.Proofs.Workspace.Dangling
import ContentTree.Proofs.Workspace.Sources
import ContentTree.Proofs.Workspace.Presence
import ContentTree.Proofs.Workspace.Pinning
import ContentTree.Proofs.Workspace.Counting
import ContentTree.Proofs.Workspace.Announcing
import ContentTree.Proofs.Workspace.Staleness
import ContentTree.Proofs.Workspace.Commuting
import ContentTree.Proofs.Workspace.Succeeding
import ContentTree.Proofs.Workspace.Retrying
import ContentTree.Proofs.Observation.Notifier
import ContentTree.Proofs.Workspace.Transitions
import ContentTree.Proofs.Workspace.Indifference
import ContentTree.Proofs.Workspace.Subscribing
import ContentTree.Proofs.ChangeLog.Classification
import ContentTree.Proofs.Encoding.RoundTrip
import ContentTree.Proofs.Persistence.Bookkeeping
import ContentTree.Proofs.Workspace.Validating
import ContentTree.Proofs.Persistence.Limits
import ContentTree.Proofs.Persistence.Scanning
import ContentTree.Proofs.Persistence.Restoring
import ContentTree.Proofs.Persistence.Recovering
import ContentTree.Proofs.Persistence.Damage
import ContentTree.Proofs.Persistence.Aftermath
import ContentTree.Proofs.Item.Children
import ContentTree.Proofs.Workspace.Recording
import ContentTree.Proofs.ChangeLog.Scope
import ContentTree.Proofs.ChangeLog.Subtraction
import ContentTree.Proofs.Item.Moves
import ContentTree.Proofs.Workspace.Sweeping
import ContentTree.Proofs.Workspace.Bootstrapping
import ContentTree.Proofs.Persistence.Apart
