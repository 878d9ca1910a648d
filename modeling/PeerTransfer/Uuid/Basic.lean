/-!
# Universally unique ids

An id is thirty-two hexadecimal digits. Fresh ids are drawn from a source, which is nothing but a
numbered sequence of ids together with how many of them have been drawn.
-/

namespace PeerTransfer

/-- Thirty-two hexadecimal digits, the most significant first. -/
structure Uuid where
  digits : Vector (Fin 16) 32
  deriving DecidableEq

namespace Uuid

/-- The id of which every digit is zero. -/
def zero : Uuid := ⟨Vector.replicate 32 ⟨0, by decide⟩⟩

instance : Inhabited Uuid := ⟨zero⟩

end Uuid

/-- A sequence of ids of which the first `drawn` are taken. -/
structure IdSource where
  ids : Nat → Uuid
  drawn : Nat

namespace IdSource

/-- Takes the next id. -/
def draw (source : IdSource) : Uuid × IdSource :=
  (source.ids source.drawn, { source with drawn := source.drawn + 1 })

/-- Takes an id for each element of the list, in order. -/
def drawFor {α : Type} : List α → IdSource → List (Uuid × α) × IdSource
  | [], source => ([], source)
  | a :: rest, source =>
    let (id, source) := source.draw
    let (pairs, source) := drawFor rest source
    ((id, a) :: pairs, source)

end IdSource

end PeerTransfer
