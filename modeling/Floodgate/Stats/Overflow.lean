import Floodgate.Stats.Store

/-!
# Latencies that leave the words

Latencies are summed up in words. Within a slot the sum starts again at zero when it leaves them, as
a counter does. Where slots are merged into a window it depends on how the program is built: a build
that does not check its sums starts again at zero there too, which is what `Window.merge` does, and a
build that checks them stops. Here is when it stops. A window that it does give is the same in both
builds.
-/

set_option autoImplicit false

namespace Floodgate

/-- Whether the sum of the latencies leaves the words while slots are merged one after another. -/
def Window.overflows : Window → List Slot → Bool
  | _, [] => false
  | w, s :: rest => (Word.add? w.totalLatency s.totalLatency).isNone || (w.merge s).overflows rest

/-- Whether it does so when slots of one resource are summed up. -/
def Series.overflows (s : Series) (start stop slotMs : Nat) : Bool :=
  (Window.empty start stop).overflows (s.slotsIn start stop (max slotMs 1))

namespace StatStore

/-- Whether the latencies of a series, if there is one, leave the words in `[start, stop)`. -/
def overflowsOf (s : StatStore) (series : Option Series) (start stop : Nat) : Bool :=
  series.any (·.overflows start stop s.grid.slotMs)

/-- Whether the latencies of a resource leave the words in `[start, stop)`. -/
def overflows (s : StatStore) (r : Resource) (start stop : Nat) : Bool :=
  s.overflowsOf (s.get? r) start stop

end StatStore
end Floodgate
