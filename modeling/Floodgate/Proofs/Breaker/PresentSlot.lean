import Floodgate.Admission.Overflow
import Floodgate.Proofs.Breaker.Monitor
import Floodgate.Proofs.Rule.Documents
import Floodgate.Proofs.Stats.Present
import Floodgate.Settings.Basic

/-!
# The present slot in the window of a breaker

A closed breaker looks back from the end of the present slot for as long as its rule says. Slots
count for a window in which they begin. So a rule that looks back for less than a slot never sees
one, and its breaker stays closed whatever is counted; neither the check of the settings nor that of
the rules refuses the combination.

Otherwise the present slot is in the window (`monitorWindow_holds_present_iff`), and a breaker that
goes by a number of errors trips as soon as so many are counted at one time. All of this is about
slots that end at a word. The very last slot does not, and there a breaker forms no window at all
(`Overflow.slotEnd`).
-/

set_option autoImplicit false

namespace Floodgate

/-- Settings that are accepted give slots the length they say. -/
theorem Settings.slotMs_store {settings : Settings} (h : settings.validate = .ok settings) :
    settings.stats.store.grid.slotMs = settings.stats.slotDurationMs := by
  have hpos : 1 ≤ settings.stats.slotDurationMs := by
    rcases Nat.eq_zero_or_pos settings.stats.slotDurationMs with hzero | hpos
    · rw [Settings.validate, if_pos hzero] at h
      cases h
    · exact hpos
  exact Nat.max_eq_left hpos

namespace Breaker

/-! ## The window -/

section Window

variable (b : Breaker) {stats : StatStore} (since : Nat) {now : Nat}
  (hend : stats.grid.floor now + stats.grid.slotMs < Word.size)

include hend

theorem monitorWindow_start_stop :
    (b.monitorWindow stats since now).start =
        max (stats.grid.floor now + stats.grid.slotMs - b.rule.monitorMs)
          (stats.grid.floor since) ∧
      (b.monitorWindow stats since now).stop = stats.grid.floor now + stats.grid.slotMs := by
  rw [b.monitorWindow_eq stats since now hend]
  exact stats.range_window b.resource _ _

variable {since} in
/-- **When the window of a closed breaker holds the start of the present slot.** The window reaches
back from the end of that slot, so a rule that looks back for less than a slot begins behind its
start. -/
theorem monitorWindow_holds_present_iff (hsince : since ≤ now) :
    (b.monitorWindow stats since now).start ≤ stats.grid.floor now ∧
        stats.grid.floor now < (b.monitorWindow stats since now).stop ↔
      stats.grid.slotMs ≤ b.rule.monitorMs := by
  obtain ⟨hstart, hstop⟩ := b.monitorWindow_start_stop since hend
  have hclosed := stats.grid.floor_mono hsince
  have hpos := stats.grid.slotMs_pos
  rw [hstart, hstop]
  omega

/-- A breaker sees what is counted in the slots that its window holds. -/
theorem counted_le_count_monitorWindow (hstats : stats.Tidy) {place : Nat}
    (hstart : (b.monitorWindow stats since now).start ≤ place)
    (hstop : place < (b.monitorWindow stats since now).stop) (o : Outcome) :
    stats.counted b.resource place o ≤ (b.monitorWindow stats since now).tally.count o := by
  rw [(b.monitorWindow_start_stop since hend).1] at hstart
  rw [(b.monitorWindow_start_stop since hend).2] at hstop
  rw [b.monitorWindow_eq stats since now hend]
  exact hstats.counted_le_count_window b.resource hstart hstop hend o

/-- A rule that looks back for less than a slot sees nothing. Slots are found by their starts, and
no start lies in its window. -/
theorem count_monitorWindow_eq_zero (hstats : stats.Tidy)
    (hshort : b.rule.monitorMs < stats.grid.slotMs) (o : Outcome) :
    (b.monitorWindow stats since now).tally.count o = 0 := by
  rw [b.monitorWindow_eq stats since now hend]
  refine hstats.count_window_eq_zero b.resource (fun place hstart hstop hplace => ?_) hend o
  -- it begins behind the start of the present slot and ends where the next one starts
  have hbehind : stats.grid.slotMs ∣ place - stats.grid.floor now :=
    Nat.dvd_sub hplace (stats.grid.dvd_floor now)
  exact Nat.not_dvd_of_pos_of_lt (by omega) (by omega) hbehind

end Window

/-! ## Rules that trip at one error -/

/-- A rule that trips at one error and looks back for so many seconds. -/
def errorRule (statInterval : Nat) : DegradeRule where
  resource := .service "s"
  strategy := .totalErrors 1
  monitorMs := statInterval * 1000

/-- How the document of such a rule is written. -/
def errorDocument (statInterval : Nat) : RawRule where
  kind := .degrade
  document := .obj [("exceptionCount", .int 1), ("service", .str "s"),
    ("statInterval", .int statInterval), ("strategy", .int 2), ("timeWindow", .int 5),
    ("type", .int 2)]

theorem parse_errorDocument {secs : Nat} (hpos : 0 < secs) (hword : secs * 1000 < Word.size) :
    (errorDocument secs).parse = .ok (.degrade (.upsert (errorRule secs))) := by
  have hsecs : (Json.int secs).unsigned64? = some secs := by
    have hlt : (secs : Int) < Word.size := by
      have := Nat.le_mul_of_pos_right secs (show 0 < 1000 by decide)
      exact_mod_cast Nat.lt_of_le_of_lt this hword
    simp only [Json.unsigned64?, Json.below?, hlt, Int.natCast_nonneg, and_self, if_true,
      Int.toNat_natCast]
  -- the milliseconds fit a word, so the time is not cut off
  have hmillis (e : Malformed) : positiveMillis (some secs) e = .ok (secs * 1000) := by
    have hle : secs * 1000 ≤ Word.greatest := Nat.le_of_lt_succ hword
    rw [positiveMillis, if_pos hpos, millis, Word.mulSaturating, Nat.min_eq_left hle]
  refine RawRule.parse_degrade_iff.mpr ⟨rfl, .mk none none (some 2) (some "s") none none (some 2)
    none (some 1) none (some 5) (some secs) none none none none none true false,
    DegradeDocument.ofJson?_eq_some_iff.mpr ⟨_, rfl, ?_⟩, ?_⟩
  · constructor
    case statInterval =>
      simp [Json.Record.optional, Json.Record.get?, hsecs, Json.Record.fieldsOf,
        DegradeDocument.fields, Json.Field.isCalled, List.lookup_cons]
    all_goals rfl
  · rw [DegradeDocument.toUpdate, if_neg Bool.false_ne_true]
    dsimp only
    rw [hmillis]
    rfl

/-! ## What is counted at the present time -/

/-- A closed breaker that goes by a number of errors, after at least so many requests and errors have
been counted in the present slot: it trips if the window holds that slot, and lets the request pass
if it looks back for less than a slot. -/
theorem permit_of_counted {stats : StatStore} (hstats : stats.Tidy) {b : Breaker} {since now n : Nat}
    (draw : Float) (hclosed : b.phase = ⟨.closed, since⟩) (hsince : since ≤ now)
    (hstrategy : b.rule.strategy = .totalErrors n) (hn : 0 < n) (hmin : b.rule.minRequests ≤ n)
    (hcounted : ∀ o, o = .completed ∨ o = .error →
      n ≤ stats.counted b.resource (stats.grid.floor now) o)
    (hend : stats.grid.floor now + stats.grid.slotMs < Word.size) :
    let answer := b.permit stats now draw
    if stats.grid.slotMs ≤ b.rule.monitorMs then
      answer.1 = .reject ∧ answer.2.1.phase.state = .open
    else answer.1 = .permit ∧ answer.2.1.phase = b.phase := by
  intro answer
  have hdecided := permit_of_closed_window hclosed stats now draw
  have htrips := trips_totalErrors hstrategy (b.monitorWindow stats since now)
  rw [watched_of_closed hclosed] at hdecided
  split
  · rename_i hlong
    -- the window holds the present slot, and with it all that was recorded
    obtain ⟨hstart, hstop⟩ := (b.monitorWindow_holds_present_iff hend hsince).mpr hlong
    have hseen : ∀ o, o = .completed ∨ o = .error →
        n ≤ (b.monitorWindow stats since now).tally.count o := fun o ho =>
      (hcounted o ho).trans (b.counted_le_count_monitorWindow since hend hstats hstart hstop o)
    have hcompleted := hseen .completed (Or.inl rfl)
    rw [if_pos (htrips.mpr ⟨by omega, by omega, hseen .error (Or.inr rfl)⟩)] at hdecided
    exact ⟨hdecided.1, by rw [hdecided.2, Phase.unpack_pack_state]⟩
  · rename_i hshort
    -- the window holds no slot start at all, so it has counted nothing
    have hnone := b.count_monitorWindow_eq_zero since hend hstats (Nat.lt_of_not_le hshort)
      .completed
    rw [if_neg fun h => by have := (htrips.mp h).1; omega] at hdecided
    exact hdecided

/-- **When a breaker trips on what is counted at the present time.** The settings and the rule are any
that are accepted, and the statistics have any history. At the time of a request, in a slot that ends
at a word, so many requests and so many errors are counted as the rule of a closed breaker asks for.
The window holds the present slot exactly if slots are no longer than the rule looks back. Then the
breaker rejects the request and opens; otherwise it sees nothing and lets the request pass. In the
last slot of all, the one that does not end at a word, the breaker decides nothing. -/
theorem permit_of_recorded_errors (settings : Settings) (raw : RawRule) (n : Nat)
    (history : List StatEvent) (records : List StatCall) (b : Breaker) (since now : Nat)
    (draw : Float)
    (hsettings : settings.validate = .ok settings)
    (hraw : raw.parse = .ok (.degrade (.upsert b.rule)))
    (hstrategy : b.rule.strategy = .totalErrors n) (hmin : b.rule.minRequests ≤ n)
    (hclosed : b.phase = ⟨.closed, since⟩) (hsince : since ≤ now)
    (htime : ∀ c ∈ records, ∀ t, c.time? = some t → t = now)
    (hcompleted : n ≤ (records.filterMap StatCall.gain?).count (b.resource, .completed))
    (herrors : n ≤ (records.filterMap StatCall.gain?).count (b.resource, .error)) :
    let slotMs := settings.stats.slotDurationMs
    let stats := (settings.stats.store.after history).calls records
    let present := stats.grid.floor now
    let window := b.watched stats now
    let answer := b.permit stats now draw
    (present + slotMs < Word.size →
      (window.start ≤ present ∧ present < window.stop ↔ slotMs ≤ b.rule.monitorMs) ∧
      if slotMs ≤ b.rule.monitorMs then answer.1 = .reject ∧ answer.2.1.phase.state = .open
      else answer.1 = .permit ∧ answer.2.1.phase = b.phase) ∧
    (Word.size ≤ present + slotMs → b.overflow? stats now = some .slotEnd) := by
  intro slotMs stats present window answer
  obtain ⟨htidy, hadded⟩ := (StatStore.tidy_after history
    (StatStore.tidy_new settings.stats.slotDurationMs settings.stats.retentionSlots)).calls
    records htime
  have hgrid : stats.grid = (settings.stats.store.after history).grid :=
    StatStore.grid_calls records _
  have hslotMs : stats.grid.slotMs = slotMs := by
    rw [hgrid, StatStore.grid_after, Settings.slotMs_store hsettings]
  -- what was there before the records is only added to
  have hcounted : ∀ o, n ≤ (records.filterMap StatCall.gain?).count (b.resource, o) →
      n ≤ stats.counted b.resource (stats.grid.floor now) o := fun o ho => by
    rw [hgrid]
    exact (ho.trans (Nat.le_add_left _ _)).trans (hadded b.resource o)
  rw [← hslotMs]
  refine ⟨fun hend => ⟨?_, ?_⟩, fun hbeyond => ?_⟩
  · rw [show window = b.monitorWindow stats since now from watched_of_closed hclosed stats now]
    exact b.monitorWindow_holds_present_iff hend hsince
  · refine permit_of_counted htidy draw hclosed hsince hstrategy
      (RawRule.pos_of_parse_totalErrors hraw hstrategy) hmin (fun o ho => ?_) hend
    rcases ho with rfl | rfl
    · exact hcounted .completed hcompleted
    · exact hcounted .error herrors
  · exact overflow?_eq_slotEnd_iff.mpr ⟨by rw [hclosed], hbeyond⟩

/-- Slots of a second, and a rule that looks back for ten. There was traffic before, some of it in a
later slot, and everything was evicted. -/
theorem permit_of_recorded_errors_evicted :
    let b := Breaker.new (.service "s") { serial := 1, rule := errorRule 10 }
    let history := [StatEvent.call (.incr b.resource .error 3500),
      .call (.incr b.resource .error 9000), .evictIdle 90000 1000]
    let records := [StatCall.incr b.resource .completed 3600, .acquire b.resource none 3600,
      .incr b.resource .error 3600]
    let stats := (({} : Settings).stats.store.after history).calls records
    (b.permit stats 3600 0).1 = .reject ∧ (b.permit stats 3600 0).2.1.phase.state = .open := by
  intro b history records
  have hdecided := (permit_of_recorded_errors {} (errorDocument 10) 1 history records b 0 3600 0 rfl
    (parse_errorDocument (by decide) (by decide)) rfl (by decide) rfl (by decide) (by decide)
    (by decide +kernel) (by decide +kernel)).1 (by decide +kernel)
  rw [if_pos (by decide)] at hdecided
  exact hdecided.2

/-- Slots of five seconds, and a rule that looks back for one: the window begins behind the start of
the present slot, and a request and an error at the present time do not make the breaker trip. -/
theorem permit_of_errors_in_long_slot :
    let settings : Settings := { stats := { slotDurationMs := 5000 } }
    let b := Breaker.new (.service "s") { serial := 1, rule := errorRule 1 }
    let stats := (settings.stats.store.incr b.resource .completed 6000).incr b.resource .error 6000
    settings.validate = .ok settings ∧
      (errorDocument 1).parse = .ok (.degrade (.upsert b.rule)) ∧
      b.rule.strategy = .totalErrors 1 ∧ b.rule.minRequests ≤ 1 ∧ b.phase = ⟨.closed, 0⟩ ∧
      stats.grid.floor 6000 < (b.watched stats 6000).start ∧
      (b.permit stats 6000 0).1 = .permit ∧ (b.permit stats 6000 0).2.1.phase = ⟨.closed, 0⟩ :=
  ⟨rfl, parse_errorDocument (by decide) (by decide), rfl, by decide, rfl, by decide +kernel,
    by decide +kernel, by decide +kernel⟩

end Breaker
end Floodgate
