import Floodgate.Proofs.Stats.Log

/-!
# Totals over all slots

`StatStore.total` adds up one counter over all slots that a resource has. As long as nothing is
written further back than the retention span, no slot is ever dropped, and the total is the number
of times that the log has the outcome for the resource (`Recorded.total_eq`).

What a function adds to the totals is its list of gains: which outcome was counted for which
resource. `StatStore.Gains` says that a store has come from another one with such a list, all of it
written at given times. Gains add up (`Gains.trans`), so the gains of a run are those of its steps,
and `Gains.total_eq` reads the totals off the gains since the store was new.

The gains of a function are those of the calls that it makes. `StatStore.Booked` says which calls
those may be: all are made at one time, and of what a slot holds beside its counters, some may be
noted and some not.
-/

set_option autoImplicit false

namespace Floodgate

/-- One counter, over all slots. -/
def Series.total (s : Series) (o : Outcome) : Nat :=
  (s.slots.values.map fun slot => slot.tally.count o).sum

/-- One counter of a resource, over all its slots. -/
def StatStore.total (s : StatStore) (r : Resource) (o : Outcome) : Nat :=
  ((s.get? r).map fun series => series.total o).getD 0

/-- What was counted by a write. -/
def SlotWrite.gain? (w : SlotWrite) : Option (Resource × Outcome) :=
  w.counted.map fun o => (w.resource, o)

namespace StatCall

variable {c : StatCall} {now : Nat}

/-- What a call counts. -/
def gains (s : StatStore) (c : StatCall) : List (Resource × Outcome) :=
  (c.write? s).toList.filterMap SlotWrite.gain?

/-! Three kinds of calls that are made at one time. Each may note more in a slot than the one before
it: nothing, the state of a breaker, a latency. -/

def CountsAt (now : Nat) : StatCall → Prop
  | .incr _ _ t | .tryStart _ _ t | .acquire _ _ t | .acquireUnbounded _ t | .observe _ t => t = now
  | .release _ => True
  | .recordLatency .. | .recordState .. => False

def DecidesAt (now : Nat) : StatCall → Prop
  | .recordState _ _ t => t = now
  | c => c.CountsAt now

def MadeAt (now : Nat) : StatCall → Prop
  | .recordLatency _ _ t => t = now
  | c => c.DecidesAt now

/-- The kinds are nested, so that what is known of all calls of a wider kind holds of a narrower
one. -/
theorem CountsAt.decides (h : c.CountsAt now) : c.DecidesAt now := by
  cases c with
  | recordState => exact h.elim
  | _ => exact h

/-- Of the widest kind it is known only when the call was made. -/
theorem DecidesAt.made (h : c.DecidesAt now) : c.MadeAt now := by
  cases c with
  | recordLatency => exact False.elim h
  | _ => exact h

/-- A limiter makes calls of this kind alone, and so it never notes the state of a breaker. -/
theorem CountsAt.note?_eq_none (h : c.CountsAt now) : c.note? = none := by
  cases c with
  | recordState => exact h.elim
  | _ => rfl

/-- A breaker makes calls of this kind, and so latencies are noted only where a request has ended.
-/
theorem DecidesAt.latency?_eq_none (h : c.DecidesAt now) : c.latency? = none := by
  cases c with
  | recordLatency => exact False.elim h
  | _ => rfl

/-- A call without a time, such as giving a unit back, is made at any. -/
theorem madeAt_iff : c.MadeAt now ↔ ∀ t, c.time? = some t → t = now := by
  cases c with
  | release => exact ⟨fun _ => nofun, fun _ => trivial⟩
  | _ => exact ⟨fun h _ ht => (Option.some.inj ht).symm.trans h, fun h => h _ rfl⟩

end StatCall

/-! ## The total and the log -/

/-- Summing up the slots is summing up the places up to the newest, for there are no slots beyond.
-/
theorem Series.Tidy.total_eq {slotMs bound : Nat} {s : Series} (h : s.Tidy slotMs)
    (hle : s.newest ≤ bound) (o : Outcome) :
    s.total o = ∑ place ∈ Finset.Ico 0 (bound + 1), s.countAt place o := by
  have hall : (s.slots.filter fun place _ => 0 ≤ place && place < bound + 1).entries =
      s.slots.entries := by
    refine List.filter_eq_self.mpr fun e he => ?_
    have hplace := h.le_newest ((s.slots.mem_entries_iff e.1 e.2).mp he)
    have hbound : e.1 < bound + 1 := by omega
    simp [hbound]
  have hsum := s.slots.sum_filter_range (fun slot => slot.tally.count o) 0 (bound + 1)
  rw [Table.values, hall] at hsum
  exact hsum

/-- If no write lies further back than the retention span, nothing that was counted is missing. The
bound stands for the newest write of all: a place that lies less than a span behind it has kept all
that was written there, whenever it was written. -/
theorem Series.Records.total_eq {g : Grid} {r : Resource} {log : List SlotWrite} {bound : Nat}
    {s : Series} (h : s.Records g r log bound)
    (hspan : ∀ w ∈ log, w.resource = r → bound < g.floor w.time + g.retentionMs) (o : Outcome) :
    s.total o = countIn g r o 0 (bound + 1) log := by
  rw [h.tidy.total_eq h.newest_le, ← sum_countOf]
  refine Finset.sum_congr rfl fun place _ => ?_
  by_cases hkept : bound < place + g.retentionMs
  · exact h.counted hkept o
  · -- nothing was written there, and so nothing was counted there
    have hnone : countOf g r o place log = 0 := by
      refine List.countP_eq_zero.mpr fun w hw hat => ?_
      obtain ⟨hr, -, rfl⟩ := of_decide_eq_true hat
      exact hkept (hspan w hw hr)
    have hle := h.atMost place o
    omega

/-- A window that holds all slots up to the bound holds everything that the log has. -/
theorem countIn_eq_count {g : Grid} {r : Resource} {o : Outcome} {bound : Nat}
    {log : List SlotWrite} (hbound : ∀ w ∈ log, w.resource = r → g.floor w.time ≤ bound) :
    countIn g r o 0 (bound + 1) log = (log.filterMap SlotWrite.gain?).count (r, o) := by
  rw [countIn, List.count, List.countP_filterMap]
  refine List.countP_congr fun w hw => ?_
  cases hcounted : w.counted with
  | none => simp [SlotWrite.gain?, hcounted]
  | some o' =>
    have hlt : w.resource = r → g.floor w.time < bound + 1 := fun hr =>
      Nat.lt_succ_of_le (hbound w hw hr)
    simp only [SlotWrite.gain?, hcounted, Option.map_some, Option.getD_some, beq_iff_eq,
      decide_eq_true_eq, Prod.mk.injEq, Option.some.injEq, Nat.zero_le, true_and]
    exact ⟨fun h => ⟨h.1, h.2.1⟩, fun h => ⟨h.1, h.2, hlt h.1⟩⟩

namespace StatStore

variable {s s' s'' : StatStore} {times times' : List Nat} {gains gains' : List (Resource × Outcome)}

/-- **The total of a counter is what the log has**, if everything was written within the retention
span. -/
theorem Recorded.total_eq {bound : Resource → Nat} {log : List SlotWrite} (h : s.Recorded bound log)
    (hbound : ∀ w ∈ log, s.grid.floor w.time ≤ bound w.resource)
    (hspan : ∀ w ∈ log, bound w.resource < s.grid.floor w.time + s.grid.retentionMs)
    (r : Resource) (o : Outcome) :
    s.total r o = (log.filterMap SlotWrite.gain?).count (r, o) := by
  have hseries : s.total r o = (s.seriesAt r 0).total o := by
    unfold total seriesAt
    cases s.get? r <;> rfl
  rw [hseries, (h.series r 0).total_eq (fun w hw hr => hr ▸ hspan w hw)]
  exact countIn_eq_count fun w hw hr => hr ▸ hbound w hw

/-! ## Gains -/

/-- From one store to another, these outcomes were counted, all of them at given times, and nothing
else. -/
structure Gains (times : List Nat) (s s' : StatStore) (gains : List (Resource × Outcome)) :
    Prop where
  grid : s'.grid = s.grid
  recorded : ∀ {bound : Resource → Nat} {log : List SlotWrite}, s.Recorded bound log →
    (∀ t ∈ times, ∀ r, s.grid.floor t ≤ bound r) →
    ∃ writes, s'.Recorded bound (log ++ writes) ∧ (∀ w ∈ writes, w.time ∈ times) ∧
      writes.filterMap SlotWrite.gain? = gains

namespace Gains

/-- Where nothing happens nothing is gained, at whatever times. -/
theorem refl (times : List Nat) (s : StatStore) : Gains times s s [] where
  grid := rfl
  recorded {bound log} h _ := ⟨[], by rwa [List.append_nil], by simp, rfl⟩

/-- What is gained on the way is gained one after the other. The times of both parts must be among
those that are named, which is how a run collects them. -/
theorem trans (h : Gains times s s' gains) (h' : Gains times s' s'' gains') :
    Gains times s s'' (gains ++ gains') where
  grid := h'.grid.trans h.grid
  recorded {bound log} hlog hbound := by
    obtain ⟨writes, hwrites, htime, hgains⟩ := h.recorded hlog hbound
    obtain ⟨writes', hwrites', htime', hgains'⟩ := h'.recorded hwrites (h.grid ▸ hbound)
    refine ⟨writes ++ writes', ?_, fun w hw => ?_, ?_⟩
    · rwa [← List.append_assoc]
    · exact (List.mem_append.mp hw).elim (htime w) (htime' w)
    · rw [List.filterMap_append, hgains, hgains']

theorem mono (h : Gains times s s' gains) (hsub : times ⊆ times') : Gains times' s s' gains where
  grid := h.grid
  recorded {bound log} hlog hbound := by
    obtain ⟨writes, hwrites, htime, hgains⟩ := h.recorded hlog fun t ht => hbound t (hsub ht)
    exact ⟨writes, hwrites, fun w hw => hsub (htime w hw), hgains⟩

/-- **The totals are what was gained**, if all slots that were written lie within the retention span
of each other. The latest of the times bounds the log, and by the hypothesis no other lies a span
behind it. -/
theorem total_eq {slotMs retained : Nat} (h : Gains times (new slotMs retained) s gains)
    (hspan : ∀ t ∈ times, ∀ t' ∈ times, s.grid.floor t < s.grid.floor t' + s.grid.retentionMs)
    (r : Resource) (o : Outcome) : s.total r o = gains.count (r, o) := by
  -- the newest slot bounds all of them
  let newest := (times.map s.grid.floor).toFinset.sup id
  have hnewest : ∀ t ∈ times, s.grid.floor t ≤ newest := fun t ht =>
    Finset.le_sup (f := id) (List.mem_toFinset.mpr (List.mem_map_of_mem ht))
  have hkept : ∀ t ∈ times, newest < s.grid.floor t + s.grid.retentionMs := by
    intro t ht
    have hpos := s.grid.retentionMs_pos
    refine (Finset.sup_lt_iff (by rw [bot_eq_zero]; omega)).mpr fun place hplace => ?_
    obtain ⟨t', ht', rfl⟩ := List.mem_map.mp (List.mem_toFinset.mp hplace)
    exact hspan t' ht' t ht
  obtain ⟨writes, hwrites, htime, hgains⟩ := h.recorded (recorded_new slotMs retained fun _ => newest)
    fun t ht _ => h.grid ▸ hnewest t ht
  rw [List.nil_append] at hwrites
  rw [← hgains]
  exact hwrites.total_eq (fun w hw => hnewest _ (htime w hw)) (fun w hw => hkept _ (htime w hw)) r o

end Gains

/-- One call gains what it writes into the log, and a call that writes nothing gains nothing. -/
theorem gains_call {now : Nat} {c : StatCall} (hc : c.MadeAt now) :
    Gains [now] s (s.call c) (c.gains s) where
  grid := s.grid_call c
  recorded {bound log} h hbound := by
    have hnow : ∀ w, c.write? s = some w → w.time = now := fun w hw =>
      StatCall.madeAt_iff.mp hc _ (c.time?_of_write? hw)
    refine ⟨(c.write? s).toList, h.call c fun w hw => ?_, fun w hw => ?_, rfl⟩
    · rw [hnow w hw]
      exact hbound now List.mem_cons_self w.resource
    · exact List.mem_singleton.mpr (hnow w (Option.mem_toList.mp hw))

/-! ## Bookings -/

/-- One store has come from another by calls of a kind, and by no others. The list is what they
counted. The calls are not named: what matters of them is their kind, and the kind is a parameter,
so that each user says what is known of the calls of one function. -/
inductive Booked (kind : StatCall → Prop) :
    StatStore → StatStore → List (Resource × Outcome) → Prop where
  | refl (s : StatStore) : Booked kind s s []
  | call {s s' : StatStore} {c : StatCall} {gains : List (Resource × Outcome)} (hc : kind c)
      (rest : Booked kind (s.call c) s' gains) : Booked kind s s' (c.gains s ++ gains)

namespace Booked

variable {kind kind' : StatCall → Prop} {now : Nat}

/-- Books are kept in the order of the calls, so the gains of two parts are written one after the
other. -/
theorem trans (h : Booked kind s s' gains) (h' : Booked kind s' s'' gains') :
    Booked kind s s'' (gains ++ gains') := by
  induction h with
  | refl s => exact h'
  | @call s s' c gains hc _ ih =>
    rw [List.append_assoc]
    exact .call hc (ih h')

/-- A function that books by calls of one kind does so by calls of any wider kind. -/
theorem mono (h : Booked kind s s' gains) (hkind : ∀ c, kind c → kind' c) :
    Booked kind' s s' gains := by
  induction h with
  | refl s => exact .refl s
  | call hc _ ih => exact .call (hkind _ hc) ih

/-- What is booked at one time is gained at that time. -/
theorem toGains (h : Booked (·.MadeAt now) s s' gains) : Gains [now] s s' gains := by
  induction h with
  | refl s => exact .refl [now] s
  | @call s s' c gains hc _ ih => exact (s.gains_call hc).trans ih

end Booked

/-! The calls of a store, each by itself. -/

section Calls

variable {kind : StatCall → Prop} (s) (r : Resource) (h : Handle Resource)

/-- A single call is booked as what it counts. The lemmas below are this one, with the gains written
out for each operation of the store. -/
theorem booked_call {c : StatCall} (hc : kind c) : Booked kind s (s.call c) (c.gains s) := by
  simpa using Booked.call hc (.refl (s.call c))

theorem booked_incr (o : Outcome) {now : Nat} (hc : kind (.incr r o now)) :
    Booked kind s (s.incr r o now) [(r, o)] := s.booked_call hc

/-- A request is booked as started exactly if there is room for it, which the answer tells. -/
theorem booked_tryStart (budget : Nat) {now : Nat} (hc : kind (.tryStart r budget now)) :
    Booked kind s (s.tryStart r budget now).2
      (if (s.tryStart r budget now).1 then [(r, .started)] else []) := by
  have hcall := s.booked_call hc
  have hgained : (StatCall.tryStart r budget now).gains s =
      if (s.tryStart r budget now).1 then [(r, .started)] else [] := by
    cases hroom : (s.tryStart r budget now).1 <;>
      simp [StatCall.gains, StatCall.write?, SlotWrite.gain?, hroom]
  rwa [hgained] at hcall

theorem booked_acquire (limit : Option Nat) {now : Nat} (hc : kind (.acquire r limit now)) :
    Booked kind s (s.acquire r limit now).2 [] := s.booked_call hc

theorem booked_acquireUnbounded {now : Nat} (hc : kind (.acquireUnbounded r now)) :
    Booked kind s (s.acquireUnbounded r now).2 [] := s.booked_call hc

theorem booked_release (hc : kind (.release h)) : Booked kind s (s.release h) [] :=
  s.booked_call hc

/-- Showing a slot the requests in flight counts nothing, even where the handle is that of a series
that has been evicted. -/
theorem booked_observe {now : Nat} (hc : kind (.observe h now)) :
    Booked kind s (s.observe h now) [] := by
  have hcall := s.booked_call hc
  have hnone : (StatCall.observe h now).gains s = [] := by
    cases hheld : s.held? h <;> simp [StatCall.gains, StatCall.write?, SlotWrite.gain?, hheld]
  rwa [hnone] at hcall

theorem booked_recordLatency (ms : Nat) {now : Nat} (hc : kind (.recordLatency r ms now)) :
    Booked kind s (s.recordLatency r ms now) [] := s.booked_call hc

theorem booked_recordState (state : BreakerState) {now : Nat} (hc : kind (.recordState r state now)) :
    Booked kind s (s.recordState r state now) [] := s.booked_call hc

end Calls
end StatStore
end Floodgate
