import PeerTransfer.Descriptor.Basic
import PeerTransfer.Failure

/-!
# Services outside

A device relies on a store of blobs, a registry of batches and a channel to its peers. What they do
is up to them; the device sees answers, and each call is a single attempt. The store may be near
enough to touch the device's disk.
-/

namespace PeerTransfer

/-- The disk of a device with the services it relies on. -/
structure World (σ : Type) where
  disk : Disk
  services : σ

/-- Services with states in `σ`. -/
class Services (σ : Type) where
  /-- Keeps content under a remote path. -/
  upload : Bytes → String → World σ → Except Failure Unit × World σ
  /-- The content kept under a remote path. -/
  download : String → World σ → Except Failure Bytes × World σ
  /-- Announces a batch, and answers the reference it is known by. -/
  publish : Descriptor → σ → Except Failure String × σ
  /-- Asks a peer for a connection. -/
  connect : String → σ → Except Failure Unit × σ
  /-- Asks to end the connection to a peer. -/
  disconnect : String → σ → Except Failure Unit × σ
  /-- Sends bytes to a peer. -/
  send : String → Bytes → σ → Except Failure Unit × σ
  /-- Adds a listener to those who are told of the channel's events. -/
  register : String → σ → σ
  /-- Takes a listener away. -/
  unregister : String → σ → σ

end PeerTransfer
