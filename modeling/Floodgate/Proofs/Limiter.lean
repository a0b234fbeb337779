import Floodgate.Limiter
import Floodgate.Proofs.Stats.Units

/-!
# Decisions of the limiter

`Limiter.Held` lists what can come of holding a request against a rule: no unit of concurrency is
left, the budget of the slot is spent and the unit goes back, or the request is let through. From
it follows what a decision does to the units. A lease is one unit, taken from the series whose
handle it carries (`takesUnit_of_allowed`); a denial leaves all units where they are
(`sameUnits_of_denied`). Whether a request is turned away for want of concurrency depends on the
units alone, which is `Held.denied_concurrency_iff`.
-/

set_option autoImplicit false

namespace Floodgate
namespace Limiter

/-- Asks for room in the present slot, if the rule bounds the rate. Otherwise the request is counted
as started without a question. -/
def start (rule : LimitRule) (stats : StatStore) (resource : Resource) (now : Nat) :
    Bool × StatStore :=
  match rule.qps with
  | some qps => stats.tryStart resource (slotBudget stats.grid qps) now
  | none => (true, stats.incr resource .started now)

/-- What can come of holding a request against a rule. Of the three, only the second has taken a
unit and given it back. -/
inductive Held (rule : LimitRule) (stats : StatStore) (resource : Resource) (now : Nat) :
    LimitDecision → StatStore → Prop where
  /-- The rule's ceiling of concurrency is reached. -/
  | crowded {asked : StatStore}
      (acquired : stats.acquire resource rule.concurrency now = (none, asked)) :
      Held rule stats resource now (.denied resource .concurrency rule)
        (asked.incr resource .blockedByLimiter now)
  | allowed {h : Handle Resource} {leased started : StatStore}
      (acquired : stats.acquire resource rule.concurrency now = (some h, leased))
      (room : start rule leased resource now = (true, started)) :
      Held rule stats resource now (.allowed { resource, rule := some rule, series := h })
        (started.observe h now)
  /-- The budget of the slot is spent, and the unit goes back. -/
  | spent {h : Handle Resource} {leased started : StatStore}
      (acquired : stats.acquire resource rule.concurrency now = (some h, leased))
      (room : start rule leased resource now = (false, started)) :
      Held rule stats resource now (.denied resource .qps rule)
        ((started.release h).incr resource .blockedByLimiter now)

/-- The decision in two steps, the unit first and the rate second. -/
theorem permitUnder_eq (rule : LimitRule) (stats : StatStore) (candidates : List Resource)
    (now : Nat) :
    permitUnder rule stats candidates now =
      let resource := rule.resource.bind candidates
      match stats.acquire resource rule.concurrency now with
      | (none, stats) => deny stats resource .concurrency rule now
      | (some h, leased) =>
        let (started, stats) := start rule leased resource now
        if started then
          (.allowed { resource, rule := some rule, series := h }, stats.observe h now)
        else deny (stats.release h) resource .qps rule now := rfl

theorem held_permitUnder (rule : LimitRule) (stats : StatStore) (candidates : List Resource)
    (now : Nat) :
    Held rule stats (rule.resource.bind candidates) now (permitUnder rule stats candidates now).1
      (permitUnder rule stats candidates now).2 := by
  rw [permitUnder_eq]
  dsimp only
  rcases ha : stats.acquire (rule.resource.bind candidates) rule.concurrency now with ⟨_ | h, leased⟩
  · exact .crowded ha
  · dsimp only
    rcases hs : start rule leased (rule.resource.bind candidates) now with ⟨_ | _, started⟩
    · exact .spent ha hs
    · exact .allowed ha hs

/-! ## Units -/

variable {rule rule' : LimitRule} {book : RuleBook} {stats stats' : StatStore}
  {resource resource' : Resource} {candidates : List Resource} {now : Nat} {axis : LimitAxis}
  {lease : Lease} {decision : LimitDecision}

theorem sameUnits_start (rule : LimitRule) (stats : StatStore) (resource : Resource) (now : Nat) :
    stats.SameUnits (start rule stats resource now).2 := by
  unfold start
  split
  · exact stats.sameUnits_tryStart resource _ now
  · exact stats.sameUnits_incr resource .started now

/-- The unit was taken when it was acquired, and starting does not add to it. -/
theorem takesUnit_of_start {h : Handle Resource} {leased started : StatStore} {room : Bool}
    (acquired : stats.acquire resource rule.concurrency now = (some h, leased))
    (hroom : start rule leased resource now = (room, started)) :
    stats.TakesUnit started resource h := by
  -- whatever the budget says, the unit is held while it is asked
  have htaken : stats.TakesUnit (stats.acquire resource rule.concurrency now).2 resource h :=
    StatStore.takesUnit_acquire (by rw [acquired])
  have hsame := sameUnits_start rule leased resource now
  rw [acquired] at htaken
  rw [hroom] at hsame
  exact htaken.trans hsame

/-- A lease names the resource and the handle that its unit was taken from. -/
theorem Held.takesUnit (hd : Held rule stats resource now (.allowed lease) stats') :
    stats.TakesUnit stats' lease.resource lease.series := by
  cases hd with
  | allowed acquired room =>
    exact (takesUnit_of_start acquired room).trans (StatStore.sameUnits_observe _ _ now)

/-- Whoever is turned away has either taken no unit or given it back to where it came from. -/
theorem Held.sameUnits (hd : Held rule stats resource now (.denied resource' axis rule') stats') :
    stats.SameUnits stats' := by
  cases hd with
  | crowded acquired =>
    have hsame : stats.SameUnits (stats.acquire resource rule.concurrency now).2 :=
      StatStore.sameUnits_acquire (by rw [acquired])
    rw [acquired] at hsame
    exact hsame.trans (StatStore.sameUnits_incr _ _ _ now)
  | spent acquired room =>
    have htaken := takesUnit_of_start acquired room
    exact (htaken.gives (StatStore.givesUnit_release htaken.held)).trans
      (StatStore.sameUnits_incr _ _ _ now)

/-- **A request that is let through has taken one unit**, from the series that its lease names. -/
theorem takesUnit_of_allowed (hp : permit book stats candidates now = (.allowed lease, stats')) :
    stats.TakesUnit stats' lease.resource lease.series := by
  unfold permit at hp
  split at hp
  · -- no rule applies, and the unit is one of the global resource
    cases hp
    exact ((stats.takesUnit_acquireUnbounded .global now).trans
      (StatStore.sameUnits_incr _ _ _ now)).trans (StatStore.sameUnits_observe _ _ now)
  · rename_i rule _
    have hd := held_permitUnder rule stats candidates now
    rw [hp] at hd
    exact hd.takesUnit

/-- **A request that is turned away holds nothing.** A unit that it took on the way has gone back
before it hears of the denial. -/
theorem sameUnits_of_denied
    (hp : permit book stats candidates now = (.denied resource axis rule, stats')) :
    stats.SameUnits stats' := by
  unfold permit at hp
  split at hp
  · cases hp
  · rename_i rule' _
    have hd := held_permitUnder rule' stats candidates now
    rw [hp] at hd
    exact hd.sameUnits

/-! ## The ceiling of concurrency -/

/-- A unit is refused exactly if as many are in flight as the limit says. -/
theorem any_of_acquire {h? : Option (Handle Resource)} {limit : Option Nat}
    (acquired : stats.acquire resource limit now = (h?, stats')) :
    limit.any (· ≤ stats.inFlight resource) = h?.isNone := by
  have hiff := stats.acquire_eq_none_iff resource limit now
  rw [acquired] at hiff
  cases h? <;> simp_all

/-- A request is turned away for want of concurrency exactly if its resource has as many requests in
flight as the rule allows. The rate is not even asked then. -/
theorem Held.denied_concurrency_iff (hd : Held rule stats resource now decision stats') :
    decision = .denied resource' .concurrency rule' ↔
      (resource' = resource ∧ rule' = rule) ∧
        rule.concurrency.any (· ≤ stats.inFlight resource) = true := by
  cases hd with
  | crowded acquired => simp [any_of_acquire acquired, eq_comm]
  | allowed acquired room => simp [any_of_acquire acquired]
  | spent acquired room => simp [any_of_acquire acquired]

/-- A request that is let through has found fewer in flight than the rule allows. -/
theorem Held.below (hd : Held rule stats resource now (.allowed lease) stats') :
    lease.resource = resource ∧ rule.concurrency.any (· ≤ stats.inFlight resource) = false := by
  cases hd with
  | allowed acquired room => exact ⟨rfl, any_of_acquire acquired⟩

/-- Who is turned away for want of concurrency has met a ceiling, and as many requests in flight. In
particular there is a rule, and it bounds the requests in flight. -/
theorem ceiling_of_denied
    (h : (permit book stats candidates now).1 = .denied resource .concurrency rule) :
    resolve book candidates = some rule ∧
      ∃ ceiling, rule.concurrency = some ceiling ∧ ceiling ≤ stats.inFlight resource := by
  rw [permit] at h
  cases hresolve : resolve book candidates with
  | none =>
    rw [hresolve] at h
    cases h
  | some rule' =>
    rw [hresolve] at h
    have hheld := held_permitUnder rule' stats candidates now
    obtain ⟨⟨rfl, rfl⟩, hfull⟩ := hheld.denied_concurrency_iff.mp h
    obtain ⟨ceiling, hceiling, hreached⟩ := (Option.any_eq_true _ _).mp hfull
    exact ⟨rfl, ceiling, hceiling, of_decide_eq_true hreached⟩

end Limiter
end Floodgate
