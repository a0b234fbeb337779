import Floodgate.Rule.Document
import Floodgate.Table

/-!
# Rules from within the process

A memory source holds a fixed list of documents and passes on those that are published. Each
subscriber has a queue of its own. A queue holds the newest documents only; a subscriber that is
slow loses the oldest.
-/

set_option autoImplicit false

namespace Floodgate

/-- A source of documents within the process. -/
structure MemorySource where
  initial : List RawRule := []
  /-- What each subscriber has not taken yet, oldest first. -/
  queues : Table Nat (List RawRule) := .empty
  /-- The number of the next subscriber. -/
  next : Nat := 0

namespace MemorySource

/-- How many documents a queue holds. -/
def capacity : Nat := 256

/-- A queue with one more document. -/
def push (queue : List RawRule) (raw : RawRule) : List RawRule :=
  let longer := queue ++ [raw]
  longer.drop (longer.length - capacity)

/-- Adds a subscriber, who sees what is published from now on. -/
def subscribe (s : MemorySource) : Nat × MemorySource :=
  (s.next, { s with queues := s.queues.insert s.next [], next := s.next + 1 })

/-- Removes a subscriber. -/
def unsubscribe (s : MemorySource) (subscriber : Nat) : MemorySource :=
  { s with queues := s.queues.erase subscriber }

/-- Passes a document on. Says to how many subscribers. -/
def publish (s : MemorySource) (raw : RawRule) : Nat × MemorySource :=
  (s.queues.size, { s with queues := s.queues.map fun _ queue => push queue raw })

/-- Takes all that waits for a subscriber. -/
def drain (s : MemorySource) (subscriber : Nat) : List RawRule × MemorySource :=
  ((s.queues.get? subscriber).getD [], { s with queues := s.queues.modify subscriber fun _ => [] })

end MemorySource
end Floodgate
