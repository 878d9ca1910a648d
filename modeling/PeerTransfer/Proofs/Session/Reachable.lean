import PeerTransfer.Proofs.Uuid.Fresh
import PeerTransfer.Session.Connection
import PeerTransfer.Session.Handling

/-!
# Sessions that come about

`Session.Reachable` holds of the sessions that operations, events and the world outside bring about
from a new one, in any order and whatever comes of them. An operation that panics has not ended, and
brings about none. Two things are taken for granted: as far as ids are drawn, the source of ids does
not repeat itself, and nobody describes a batch under an id that is yet to be drawn, or its units
under texts that are read as the same id.
-/

namespace PeerTransfer.Session

variable {σ : Type} [Services σ]

/-- Sessions that come about while no more ids are drawn than the limit says, up to which the source
does not repeat itself. A run draws only so many ids, so a limit leaves out none but those that draw
an id twice. Between operations the world may change on its own. -/
inductive Reachable (limit : Nat) : Session σ → Prop
  | start {settings : Settings} {source : IdSource} {world : World σ} {s : Session σ} :
      source.DistinctBelow limit → Session.start settings source world = .ok s → Reachable limit s
  | world {s : Session σ} (world : World σ) : Reachable limit s → Reachable limit { s with world }
  | notify {s : Session σ} (event : Event) : Reachable limit s → Reachable limit (s.notify event)
  | next {s s' : Session σ} {event : Event} :
      Reachable limit s → s.next? = some (event, s') → Reachable limit s'
  | subscribe {s : Session σ} (subscriber : Subscriber) :
      Reachable limit s → Reachable limit ((Session.subscribe subscriber).run s).2
  | unsubscribe {s : Session σ} (subscriber : String) :
      Reachable limit s → Reachable limit ((Session.unsubscribe subscriber).run s).2
  | select {s : Session σ} (endpoint : String) :
      Reachable limit s → Reachable limit ((Session.select endpoint).run s).2
  | connect {s : Session σ} (endpoint : String) :
      Reachable limit s → Reachable limit ((Session.connect endpoint).run s).2
  | disconnect {s : Session σ} (endpoint : String) :
      Reachable limit s → Reachable limit ((Session.disconnect endpoint).run s).2
  | createBatch {s : Session σ} (endpoint : String) (sources : List Path) :
      Reachable limit s → ((Session.createBatch endpoint sources).run s).2.ids.drawn ≤ limit →
      Reachable limit ((Session.createBatch endpoint sources).run s).2
  | loadBatch {s : Session σ} (endpoint batch : String) :
      Reachable limit s → ((Session.loadBatch endpoint batch).run s).1 ≠ .error .panicked →
      Reachable limit ((Session.loadBatch endpoint batch).run s).2
  | stageBatch {s : Session σ} (endpoint batch : String) :
      Reachable limit s → ((Session.stageBatch endpoint batch).run s).1 ≠ .error .panicked →
      Reachable limit ((Session.stageBatch endpoint batch).run s).2
  | sendBatch {s : Session σ} (endpoint batch : String) :
      Reachable limit s → Reachable limit ((Session.sendBatch endpoint batch).run s).2
  | receiveDescriptor {s : Session σ} (endpoint : String) (descriptor : Descriptor) :
      Reachable limit s → (descriptor.units.keys.map Uuid.parse?).Nodup →
      s.ids.IsFresh limit descriptor.batchId →
      Reachable limit ((Session.receiveDescriptor endpoint descriptor).run s).2
  | downloadBatch {s : Session σ} (endpoint batch : String) :
      Reachable limit s → ((Session.downloadBatch endpoint batch).run s).1 ≠ .error .panicked →
      Reachable limit ((Session.downloadBatch endpoint batch).run s).2
  | handle {s : Session σ} (event : Event) :
      Reachable limit s → ((Session.handle event).run s).2.ids.drawn ≤ limit →
      Reachable limit ((Session.handle event).run s).2
  | pump {s : Session σ} :
      Reachable limit s → s.pump.2.ids.drawn ≤ limit → Reachable limit s.pump.2

end PeerTransfer.Session
