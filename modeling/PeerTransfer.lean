import PeerTransfer.Proofs.Batch.Delivered
import PeerTransfer.Proofs.Batch.Handover
import PeerTransfer.Proofs.Phase.Confined
import PeerTransfer.Proofs.Phase.Life
import PeerTransfer.Proofs.Phase.Order
import PeerTransfer.Proofs.Phase.Retry
import PeerTransfer.Proofs.Phase.Traceless
import PeerTransfer.Proofs.Phase.Unloaded
import PeerTransfer.Proofs.Session.Acceptance
import PeerTransfer.Proofs.Session.Downloaded
import PeerTransfer.Proofs.Session.Journal
import PeerTransfer.Proofs.Session.Materialized
import PeerTransfer.Proofs.Session.Orphans
import PeerTransfer.Proofs.Session.Publication
import PeerTransfer.Proofs.Session.Refusal
import PeerTransfer.Proofs.Session.Sending
import PeerTransfer.Proofs.Settings.Toml
import PeerTransfer.Proofs.Table.Acceptance
import PeerTransfer.Proofs.Table.InPlace
import PeerTransfer.Proofs.Table.Listing
import PeerTransfer.Proofs.Table.Replay
import PeerTransfer.Proofs.Unit.StoredName
import PeerTransfer.Proofs.Wire.Canonical
import PeerTransfer.Proofs.Wire.Cursor
import PeerTransfer.Proofs.Wire.Domain
import PeerTransfer.Services.InMemory
import PeerTransfer.Session.Connection
import PeerTransfer.Session.Handling
