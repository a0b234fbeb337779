import Floodgate.Proofs.Admission.Run
import Floodgate.Proofs.Breaker.Registry
import Floodgate.Proofs.Limiter
import Floodgate.Proofs.Stats.Footprint

/-!
# The footprint of a request

Under a given book a request is bound to one resource by the limiter, and to another, or the same,
by a breaker. `Gate.bound` is the two together, and it is the footprint of the request: that is
`Gate.footprint_enterAt`, and `Gate.footprint_finishAt` says it of the way back, where the
permit has to name these resources itself.

For a breaker one thing must be known that no footprint says: it writes under its own resource, and
that is the key of the handle it is reached by (`Registry.Seated`). So the agreement of gates has it
as a part.
-/

set_option autoImplicit false

namespace Floodgate

open StatStore (AgreeOn footprint_incr)

/-! ## The limiter -/

namespace Limiter

/-- The resource that a request is counted under. Without a rule that is the global one, which is
counted but never limited. -/
def limited (book : RuleBook) (candidates : List Resource) : Resource :=
  ((resolve book candidates).map fun rule => rule.resource.bind candidates).getD .global

/-- Starting a request writes under the resource that it is started on. With a budget it also reads
the grid, which tells how much of the budget a slot has. -/
theorem footprint_start (rule : LimitRule) (resource : Resource) (now : Nat) :
    HasFootprint AgreeOn {resource} fun s => start rule s resource now := by
  unfold start
  cases rule.qps with
  | some qps =>
    have hgrid : HasFootprint AgreeOn {resource} fun s => (s.grid, s) := .read fun _ hs => hs.grid
    have hop := hgrid.bind fun grid =>
      StatStore.footprint_tryStart resource now (slotBudget grid qps)
    exact hop
  | none =>
    have hop := (footprint_incr resource now .started).bind fun _ => .answer true
    exact hop

theorem footprint_deny (resource : Resource) (axis : LimitAxis) (rule : LimitRule) (now : Nat) :
    HasFootprint AgreeOn {resource} fun s => deny s resource axis rule now := by
  have hop := (footprint_incr resource now .blockedByLimiter).bind fun _ =>
    .answer (LimitDecision.denied resource axis rule)
  exact hop

/-- How a request goes on that was granted a unit of concurrency, or was not. -/
def goOn (rule : LimitRule) (resource : Resource) (now : Nat) :
    Option (Handle Resource) → StatStore → LimitDecision × StatStore
  | none, stats => deny stats resource .concurrency rule now
  | some h, stats =>
    let started := start rule stats resource now
    if started.1 then
      (.allowed { resource, rule := some rule, series := h }, started.2.observe h now)
    else deny (started.2.release h) resource .qps rule now

/-- A limit rule asks for a unit of concurrency first. All the rest depends on the store only
through what came of that. -/
theorem permitUnder_eq_goOn (rule : LimitRule) (stats : StatStore) (candidates : List Resource)
    (now : Nat) :
    permitUnder rule stats candidates now =
      let resource := rule.resource.bind candidates
      let asked := stats.acquire resource rule.concurrency now
      goOn rule resource now asked.1 asked.2 := by
  rw [permitUnder_eq]
  dsimp only
  rcases stats.acquire (rule.resource.bind candidates) rule.concurrency now with ⟨_ | h, asked⟩
  · rfl
  · rfl

/-- The handle of the unit has to be one of the resource. That is not in its type, so it is asked
for here and supplied where the unit is taken. -/
theorem footprint_goOn (rule : LimitRule) (resource : Resource) (now : Nat)
    (h? : Option (Handle Resource)) (hkey : ∀ h, h? = some h → h.key = resource) :
    HasFootprint AgreeOn {resource} (goOn rule resource now h?) := by
  cases h? with
  | none => exact footprint_deny resource .concurrency rule now
  | some h =>
    obtain rfl := hkey h rfl
    -- whether the unit is shown or given back is decided by the start, and all three lie at one key
    have hop := (footprint_start rule h.key now).bind (k := fun started stats =>
      if started then
        (.allowed { resource := h.key, rule := some rule, series := h }, stats.observe h now)
      else deny (stats.release h) h.key .qps rule now) fun started => by
      cases started with
      | true => exact (StatStore.footprint_observe h now).bind fun _ => .answer _
      | false =>
        exact (StatStore.footprint_release h).bind fun _ => footprint_deny h.key .qps rule now
    exact hop

/-- Under one rule a request stays at the resource that the rule binds it to. -/
theorem footprint_permitUnder (rule : LimitRule) (candidates : List Resource) (now : Nat) :
    HasFootprint AgreeOn {rule.resource.bind candidates} fun s =>
      permitUnder rule s candidates now := by
  simp only [permitUnder_eq_goOn]
  generalize rule.resource.bind candidates = r
  exact (StatStore.footprint_acquire r now rule.concurrency).bind_of
    (P := fun h? => ∀ h, h? = some h → h.key = r)
    (fun {_ _ _} _ h hs => Roster.key_of_handle? (StatStore.takesUnit_acquire hs).held)
    fun h? hkey => footprint_goOn rule r now h? hkey

theorem footprint_permitUnlimited (now : Nat) :
    HasFootprint AgreeOn {.global} fun s => permitUnlimited s now := by
  have hop := (StatStore.footprint_acquireUnbounded .global now).bind_of
    (P := fun h => h.key = .global) (fun {_ s _} _ => s.key_track .global now)
    (k := fun h stats =>
      (LimitDecision.allowed { resource := .global, rule := none, series := h },
        (stats.incr .global .started now).observe h now)) fun h hkey => by
    have hobserve := StatStore.footprint_observe h now
    rw [hkey] at hobserve
    have hstart := (footprint_incr .global now .started).bind fun _ => hobserve.bind fun _ =>
      .answer (LimitDecision.allowed { resource := .global, rule := none, series := h })
    exact hstart
  exact hop

/-- **The limiter works on one resource.** Which one depends on the rules alone, and not on anything
that has been counted. -/
theorem footprint_permit (book : RuleBook) (candidates : List Resource) (now : Nat) :
    HasFootprint AgreeOn {limited book candidates} fun s => permit book s candidates now := by
  unfold permit limited
  cases resolve book candidates with
  | none => exact footprint_permitUnlimited now
  | some rule => exact footprint_permitUnder rule candidates now

/-- The lease of a request is on the resource that the request is bound to, and so is its handle,
through which the unit goes back. -/
theorem lease_of_allowed {book : RuleBook} {stats stats' : StatStore} {candidates : List Resource}
    {now : Nat} {lease : Lease}
    (hp : permit book stats candidates now = (.allowed lease, stats')) :
    lease.resource = limited book candidates ∧ lease.series.key = limited book candidates := by
  have hkey : lease.series.key = lease.resource :=
    Roster.key_of_handle? (takesUnit_of_allowed hp).held
  suffices hres : lease.resource = limited book candidates from ⟨hres, hkey.trans hres⟩
  unfold permit at hp
  unfold limited
  cases hrule : resolve book candidates with
  | none =>
    rw [hrule] at hp
    cases hp
    rfl
  | some rule =>
    rw [hrule] at hp
    have hd := held_permitUnder rule stats candidates now
    dsimp only at hp
    rw [hp] at hd
    exact hd.below.1

end Limiter

/-! ## One breaker -/

namespace Breaker

theorem watched_congr {b : Breaker} {Q : Set Resource} {s s' : StatStore} (h : AgreeOn Q s s')
    (hb : b.resource ∈ Q) (now : Nat) : b.watched s now = b.watched s' now := by
  unfold watched monitorWindow
  rw [h.grid, h.window hb]

/-- What a transition makes of a breaker, and of the statistics. A function of its own, since the
transition is computed from a window and only then carried out. -/
def settle (b : Breaker) (t : Transition) (now : Nat) (stats : StatStore) :
    (Decision × Breaker) × StatStore :=
  let entered := match t.next with
    | some next => b.enter next stats
    | none => (b, stats)
  let settled := if t.decision = .reject then entered.1.recordReject else entered.1
  ((t.decision, settled), entered.2.recordState settled.resource settled.phase.state now)

/-- A transition writes the new state, if there is one, and then the state that is shown. Both go
under the resource of the breaker, which a transition does not change. -/
theorem footprint_settle (b : Breaker) (t : Transition) (now : Nat) :
    HasFootprint AgreeOn {b.resource} (b.settle t now) := by
  obtain ⟨d, next⟩ := t
  -- with a new phase or without, the last step is to show the state
  have hrecord (settled : Breaker) (hsettled : settled.resource = b.resource) :
      HasFootprint AgreeOn {b.resource} fun s : StatStore =>
        ((d, settled), s.recordState settled.resource settled.phase.state now) := by
    have hop := (StatStore.footprint_recordState b.resource now settled.phase.state).bind fun _ =>
      .answer (d, settled)
    rw [hsettled]
    exact hop
  cases next with
  | none =>
    refine hrecord (if d = .reject then b.recordReject else b) ?_
    split
    · exact b.recordReject_resource
    · rfl
  | some next =>
    let entered : Breaker := { b with phase := Phase.unpack next.pack }
    have hop := (StatStore.footprint_recordState b.resource next.since next.state).bind fun _ =>
      hrecord (if d = .reject then entered.recordReject else entered) (by
        split
        · exact entered.recordReject_resource
        · rfl)
    exact hop

/-- A request is first judged by what the breaker watches, and then settled. -/
theorem permit_eq_settle (b : Breaker) (stats : StatStore) (now : Nat) (draw : Float) :
    b.permit stats now draw =
      let settled := b.settle (b.phase.evaluate b.rule (b.watched stats now) now draw) now stats
      (settled.1.1, settled.1.2, settled.2) := rfl

theorem footprint_onProbeOutcome (b : Breaker) (success : Bool) (now : Nat) :
    HasFootprint AgreeOn {b.resource} fun s => b.onProbeOutcome success s now := by
  unfold onProbeOutcome
  cases b.phase.afterProbe? success now with
  | none => exact .answer b
  | some next =>
    have hop := (StatStore.footprint_recordState b.resource next.since next.state).bind fun _ =>
      .answer { b with phase := Phase.unpack next.pack }
    exact hop

/-- **A breaker works on its own resource**, in what it reads as in what it writes. -/
theorem footprint_permit (b : Breaker) (now : Nat) (draw : Float) :
    HasFootprint AgreeOn {b.resource} fun s =>
      (((b.permit s now draw).1, (b.permit s now draw).2.1), (b.permit s now draw).2.2) := by
  have hwatched : HasFootprint AgreeOn {b.resource} fun s => (b.watched s now, s) :=
    .read fun hQ hs => watched_congr hs (hQ rfl) now
  have hop := hwatched.bind fun w => b.footprint_settle (b.phase.evaluate b.rule w now draw) now
  exact hop

end Breaker
/-! ## The breakers -/

/-- The breaker that has decided. -/
def Verdict.breaker? : Verdict → Option (Handle Resource)
  | unrestricted => none
  | permit h _ => some h
  | reject h _ => some h

namespace Registry

/-- The resource whose breaker decides a request. It is bound by the degrade rules as the limiter
binds it by the limit rules, and the two need not agree. -/
def guarded? (book : RuleBook) (candidates : List Resource) : Option Resource :=
  (book.degrades.firstEnabled? candidates).map fun e => e.rule.resource.bind candidates

/-- Every breaker, in service or not, is that of the resource it is found at. Footprints are sets of
resources and a breaker is reached by a handle, so without this its footprint could not be named. -/
def Seated (g : Registry) : Prop := ∀ h b, g.held? h = some b → b.resource = h.key

namespace Seated

variable {g : Registry}

theorem empty : ({} : Registry).Seated := fun h b hb => by cases (show none = some b from hb)

theorem install (hg : g.Seated) {r : Resource} {b : Breaker} (hb : b.resource = r) :
    ({ breakers := g.breakers.install r b } : Registry).Seated := fun h c hc => by
  rw [held?, Roster.get?_install] at hc
  split at hc
  · rename_i hat
    cases hc
    rw [hat, hb]
  · exact hg h c hc

theorem modify (hg : g.Seated) {hd : Handle Resource} {f : Breaker → Breaker}
    (hf : ∀ b : Breaker, b.resource = hd.key → (f b).resource = hd.key) :
    ({ breakers := g.breakers.modify hd f } : Registry).Seated := fun h c hc => by
  rw [held?, Roster.get?_modify] at hc
  split at hc
  · rename_i hat
    obtain ⟨b, hb, rfl⟩ := Option.map_eq_some_iff.mp hc
    rw [hat]
    exact hf b (hg hd b hb)
  · exact hg h c hc

theorem withOne (hg : g.Seated) (r : Resource) (e : Edition DegradeRule) :
    ({ breakers := g.withOne r e } : Registry).Seated := by
  unfold Registry.withOne
  split
  · exact hg
  · exact hg.install rfl

/-- A new rule book takes breakers out of service, changes their rules and makes new ones, and none
of this moves a breaker to another place. -/
theorem reconcile (hg : g.Seated) (book : RuleBook) : (g.reconcile book).Seated := by
  have hdrop : (g.dropStale book).Seated := fun h b hb => by
    rw [held?, dropStale, Roster.get?_retain] at hb
    exact hg h b hb
  have hrefresh : ((g.dropStale book).refresh book).Seated := fun h c hc => by
    rw [held?, refresh, Roster.get?_modifyCurrent] at hc
    split at hc
    · obtain ⟨b, hb, rfl⟩ := Option.map_eq_some_iff.mp hc
      split
      · rw [Breaker.update_resource]
        exact hdrop h b hb
      · exact hdrop h b hb
    · exact hdrop h c hc
  -- what is left is to add breakers one by one, each at the resource of its rule
  unfold Registry.reconcile
  generalize book.degrades.toList = es
  generalize (g.dropStale book).refresh book = g' at hrefresh
  induction es generalizing g' with
  | nil => exact hrefresh
  | cons e es ih =>
    refine ih _ ?_
    rcases addFor_cases g' book.version e with ⟨hskip, -⟩ | ⟨-, -, -, hadd⟩
    · rw [hskip]
      exact hrefresh
    · rw [hadd]
      exact hrefresh.install (Breaker.update_resource _ _ _)

end Seated

/-- Making a breaker where there is none changes one place. -/
theorem withOne_place (g : Registry) (r : Resource) (e : Edition DegradeRule) (r' : Resource) :
    (g.withOne r e).place r' =
      if r' = r ∧ (g.get? r).isSome = false then (g.breakers.place r).install (Breaker.new r e)
      else g.breakers.place r' := by
  unfold withOne
  cases (g.get? r).isSome with
  | true => simp
  | false => simp

end Registry

/-! ## Gates -/

namespace Gate

/-- The gates follow the same book, their clocks can be read, and they hold the same at some
resources. Of the breakers whole places are compared, with all holders they have had, since a permit
may come back to a breaker that is out of service. -/
structure AgreeOn (book : RuleBook) (Q : Set Resource) (g g' : Gate) : Prop where
  books : g.book = book ∧ g'.book = book
  working : g.clock.failing = false ∧ g'.clock.failing = false
  stats : StatStore.AgreeOn Q g.stats g'.stats
  breakers : ∀ {r}, r ∈ Q → g.breakers.breakers.place r = g'.breakers.breakers.place r
  seated : g.breakers.Seated ∧ g'.breakers.Seated

variable {α : Type} (book : RuleBook) {R : Set Resource}

/-- An operation of the store, done by a gate. The footprint of the operation is also that of the
gate. -/
def onStats (op : StatStore → α × StatStore) (g : Gate) : α × Gate :=
  ((op g.stats).1, { g with stats := (op g.stats).2 })

theorem footprint_onStats {op : StatStore → α × StatStore}
    (hop : HasFootprint StatStore.AgreeOn R op) :
    HasFootprint (AgreeOn book) R (onStats op) where
  frame hQ h := { h with stats := hop.frame hQ h.stats }
  congr hQ h := ⟨(hop.congr hQ h.stats).1, { h with stats := (hop.congr hQ h.stats).2 }⟩

theorem footprint_held? (h : Handle Resource) :
    HasFootprint (AgreeOn book) {h.key} fun g => (g.breakers.held? h, g) :=
  .read fun hQ hg => Roster.get?_congr (hg.breakers (hQ rfl))

/-- The change must leave the breaker its resource, or it would no longer be seated. -/
theorem footprint_modify (h : Handle Resource) {f : Breaker → Breaker}
    (hf : ∀ b : Breaker, b.resource = h.key → (f b).resource = h.key) :
    HasFootprint (AgreeOn book) {h.key} fun g =>
      ((), { g with breakers := { breakers := g.breakers.breakers.modify h f } }) where
  frame {Q g g'} hQ hg := by
    refine { hg with breakers := fun {r} hr => ?_, seated := ⟨hg.seated.1.modify hf, hg.seated.2⟩ }
    have hne : r ≠ h.key := fun heq => Set.disjoint_left.mp hQ heq hr
    dsimp only
    rw [Roster.place_modify, if_neg hne]
    exact hg.breakers hr
  congr {Q g g'} _ hg := by
    refine ⟨rfl, { hg with
      breakers := fun {r} hr => ?_
      seated := ⟨hg.seated.1.modify hf, hg.seated.2.modify hf⟩ }⟩
    dsimp only
    rw [Roster.place_modify, Roster.place_modify, hg.breakers hr]

theorem footprint_withOne (r : Resource) (e : Edition DegradeRule) :
    HasFootprint (AgreeOn book) {r} fun g =>
      ((), { g with breakers := { breakers := g.breakers.withOne r e } }) where
  frame {Q g g'} hQ hg := by
    refine { hg with
      breakers := fun {r'} hr' => ?_
      seated := ⟨hg.seated.1.withOne r e, hg.seated.2⟩ }
    have hne : r' ≠ r := fun heq => Set.disjoint_left.mp hQ heq hr'
    dsimp only
    rw [Registry.withOne_place, if_neg fun hat => hne hat.1]
    exact hg.breakers hr'
  congr {Q g g'} hQ hg := by
    refine ⟨rfl, { hg with
      breakers := fun {r'} hr' => ?_
      seated := ⟨hg.seated.1.withOne r e, hg.seated.2.withOne r e⟩ }⟩
    have hplace := hg.breakers (hQ rfl)
    dsimp only
    rw [Registry.withOne_place, Registry.withOne_place, hg.breakers hr', hplace, Registry.get?,
      Registry.get?, Roster.current?, Roster.current?, hplace]

variable {book} in
theorem key_of_lookup {g : Registry} {candidates : List Resource} {h : Handle Resource}
    (hh : (g.lookup book candidates).1 = some h) :
    Registry.guarded? book candidates = some h.key := by
  unfold Registry.guarded?
  cases he : book.degrades.firstEnabled? candidates with
  | none =>
    rw [Registry.lookup, he] at hh
    cases hh
  | some e =>
    obtain ⟨h', hh'⟩ := Option.isSome_iff_exists.mp
      (g.handle?_withOne_isSome (e.rule.resource.bind candidates) e)
    rw [Registry.lookup_eq he hh'] at hh
    cases hh
    rw [Option.map_some, Roster.key_of_handle? hh']

/-- The breaker that a lookup ends at, if at any, keeps up with its rule. -/
def keepUp (e : Edition DegradeRule) (version : Nat) :
    Option (Handle Resource) → Gate → Option (Handle Resource) × Gate
  | none, g => (none, g)
  | some h, g => (some h, { g with breakers :=
      { breakers := g.breakers.breakers.modify h fun b => (b.update e version).2 } })

theorem footprint_keepUp (e : Edition DegradeRule) (version : Nat) (h : Handle Resource) :
    HasFootprint (AgreeOn book) {h.key} (keepUp e version (some h)) := by
  have hop := (footprint_modify book h fun b hb => (b.update_resource e version).trans hb).bind
    fun _ => .answer (some h)
  exact hop

/-- To look up the breaker of a request may be to make one, and shows it the rule in force. All of
it happens at one place, or at none if no rule applies. -/
theorem footprint_lookup (candidates : List Resource) :
    HasFootprint (AgreeOn book) {r | Registry.guarded? book candidates = some r} fun g =>
      ((g.breakers.lookup book candidates).1,
        { g with breakers := (g.breakers.lookup book candidates).2 }) := by
  cases he : book.degrades.firstEnabled? candidates with
  | none =>
    simp only [Registry.lookup, he]
    exact .answer none
  | some e =>
    let r := e.rule.resource.bind candidates
    have hread : HasFootprint (AgreeOn book) {r} fun g => (g.breakers.breakers.handle? r, g) :=
      .read fun hQ hg => Roster.handle?_congr (hg.breakers (hQ rfl))
    have hop := (footprint_withOne book r e).bind fun _ => hread.bind_of
      (P := fun h? => ∀ h, h? = some h → h.key = r)
      (fun {_ _ _} _ _ hh => Roster.key_of_handle? hh)
      (k := keepUp e book.version) fun h? hkey => by
      cases h? with
      | none => exact .answer none
      | some h => exact hkey h rfl ▸ footprint_keepUp book e book.version h
    have hr : Registry.guarded? book candidates = some r := by
      rw [Registry.guarded?, he, Option.map_some]
    -- the three steps together are the lookup: the breaker that was made is found under its handle
    refine (HasFootprint.within hop hr).of_eq fun g => ?_
    obtain ⟨h, hh⟩ := Option.isSome_iff_exists.mp (g.breakers.handle?_withOne_isSome r e)
    rw [Registry.lookup_eq he hh]
    dsimp only
    rw [hh, keepUp]

/-- What a breaker has decided is carried out. The breaker is put back in its place, and if it turns
the request away that is counted under its resource. -/
def carryOut (h : Handle Resource) (now : Nat) (decided : Decision × Breaker) (g : Gate) :
    Verdict × Gate :=
  let g := { g with breakers := { breakers := g.breakers.breakers.modify h fun _ => decided.2 } }
  match decided.1 with
  | .permit => (.permit h false, g)
  | .probe => (.permit h true, g)
  | .reject =>
    (.reject h decided.2.phase.state,
      { g with stats := g.stats.incr decided.2.resource .blockedByBreaker now })

theorem footprint_carryOut (h : Handle Resource) (now : Nat) (d : Decision) {b : Breaker}
    (hb : b.resource = h.key) :
    HasFootprint (AgreeOn book) {h.key} (carryOut h now (d, b)) := by
  have hmodify := footprint_modify book h (f := fun _ => b) fun _ _ => hb
  cases d with
  | permit => exact hmodify.bind fun _ => .answer (Verdict.permit h false)
  | probe => exact hmodify.bind fun _ => .answer (Verdict.permit h true)
  | reject =>
    have hcount := footprint_onStats book (footprint_incr b.resource now .blockedByBreaker)
    rw [hb] at hcount
    have hop := hmodify.bind fun _ => hcount.bind fun _ => .answer (Verdict.reject h b.phase.state)
    unfold carryOut
    rw [hb]
    exact hop

/-- A breaker decides a request. It looks at its window, enters another phase if need be, and is put
back in its place. -/
theorem footprint_permitBy (h : Handle Resource) {b : Breaker} (hb : b.resource = h.key) (now : Nat)
    (draw : Float) :
    HasFootprint (AgreeOn book) {h.key} fun g =>
      let decided := g.breakers.permitBy h b g.stats now draw
      (decided.1, { g with breakers := decided.2.1, stats := decided.2.2 }) := by
  have hdecide := b.footprint_permit now draw
  rw [hb] at hdecide
  have hop := (footprint_onStats book hdecide).bind_of
    (P := fun decided => decided.2.resource = h.key)
    (fun {_ g _} _ => (b.permit_rule g.stats now draw).1.trans hb)
    (k := carryOut h now) fun decided hresource =>
      footprint_carryOut book h now decided.1 hresource
  refine hop.of_eq fun g => ?_
  unfold Registry.permitBy carryOut onStats
  dsimp only
  cases (b.permit g.stats now draw).1 with
  | permit => rfl
  | probe => rfl
  | reject => rfl

/-- A request is put to its breaker, if it has one. -/
def askBreaker (now : Nat) (draw : Float) :
    Option (Handle Resource × Breaker) → Gate → Verdict × Gate
  | none, g => (.unrestricted, g)
  | some (h, b), g =>
    let decided := g.breakers.permitBy h b g.stats now draw
    (decided.1, { g with breakers := decided.2.1, stats := decided.2.2 })

theorem footprint_askBreaker (h : Handle Resource) (now : Nat) (draw : Float) :
    HasFootprint (AgreeOn book) {h.key} fun g =>
      askBreaker now draw ((g.breakers.held? h).map fun b => (h, b)) g :=
  (footprint_held? book h).bind_of (P := fun b? => ∀ b, b? = some b → b.resource = h.key)
    (fun {_ _ _} hg b hb => hg.seated.1 h b hb)
    (k := fun b? => askBreaker now draw (b?.map fun b => (h, b))) fun b? hb => by
      cases b? with
      | none => exact .answer Verdict.unrestricted
      | some b => exact footprint_permitBy book h (hb b rfl) now draw

/-- The breakers decide a request. Its footprint is the resource of the breaker that is found, if
there is one, and otherwise empty. -/
theorem footprint_permit (candidates : List Resource) (now : Nat) (draw : Float) :
    HasFootprint (AgreeOn book) {r | Registry.guarded? book candidates = some r} fun g =>
      let decided := g.breakers.permit book g.stats candidates now draw
      (decided.1, { g with breakers := decided.2.1, stats := decided.2.2 }) := by
  have hop := (footprint_lookup book candidates).bind_of
    (P := fun h? => ∀ h, h? = some h → Registry.guarded? book candidates = some h.key)
    (fun {_ _ _} _ _ hh => key_of_lookup hh)
    (k := fun h? g => askBreaker now draw
      (h?.bind fun h => (g.breakers.held? h).map fun b => (h, b)) g) fun h? hkey => by
    cases h? with
    | none => exact .answer Verdict.unrestricted
    | some h => exact (footprint_askBreaker book h now draw).within (hkey h rfl)
  refine hop.of_eq fun g => ?_
  unfold Registry.permit
  dsimp only
  cases (g.breakers.lookup book candidates).1.bind fun h =>
      ((g.breakers.lookup book candidates).2.held? h).map fun b => (h, b) with
  | none => rfl
  | some found => rfl

variable {book} in
/-- The handle in a verdict is that of the resource the request is bound to. -/
theorem key_of_permit {g : Registry} {stats : StatStore} {candidates : List Resource} {now : Nat}
    {draw : Float} {h : Handle Resource}
    (hv : (g.permit book stats candidates now draw).1.breaker? = some h) :
    Registry.guarded? book candidates = some h.key := by
  rcases g.permit_cases book stats candidates now draw with
    ⟨-, hpermit⟩ | ⟨e, hd, b, he, -, hhandle, -, -, hpermit⟩
  · rw [hpermit] at hv
    cases hv
  · have hkey : Registry.guarded? book candidates = some hd.key := by
      rw [Registry.guarded?, he, Option.map_some, Roster.key_of_handle? hhandle]
    rw [hpermit] at hv
    unfold Registry.permitBy at hv
    dsimp only at hv
    split at hv
    · cases hv
      exact hkey
    · cases hv
      exact hkey
    · cases hv
      exact hkey

/-- A breaker is told how its probe went, if it is there. A breaker that is out of service hears of
it too, through the handle that the permit has kept. -/
def tellBreaker (h : Handle Resource) (success : Bool) (now : Nat) :
    Option Breaker → Gate → Unit × Gate
  | none, g => ((), g)
  | some b, g =>
    let told := b.onProbeOutcome success g.stats now
    ((), { g with
      breakers := { breakers := g.breakers.breakers.modify h fun _ => told.1 }
      stats := told.2 })

/-- The outcome of a probe is told to its breaker. The breaker may be out of service by then, but
its handle still leads to it. -/
theorem footprint_onProbeOutcome (h : Handle Resource) (success : Bool) (now : Nat) :
    HasFootprint (AgreeOn book) {h.key} fun g =>
      let told := g.breakers.onProbeOutcome h success g.stats now
      ((), { g with breakers := told.1, stats := told.2 }) := by
  have hop := (footprint_held? book h).bind_of
    (P := fun b? => ∀ b, b? = some b → b.resource = h.key)
    (fun {_ _ _} hg b hb => hg.seated.1 h b hb)
    (k := tellBreaker h success now) fun b? hb => by
    cases b? with
    | none => exact .answer ()
    | some b =>
      have hb := hb b rfl
      have htell := b.footprint_onProbeOutcome success now
      rw [hb] at htell
      have hop := (footprint_onStats book htell).bind_of
        (P := fun told => told.resource = h.key)
        (fun {_ g _} _ => (b.onProbeOutcome_rule success g.stats now).1.trans hb)
        fun told htold => footprint_modify book h (f := fun _ => told) fun _ _ => htold
      exact hop
  refine hop.of_eq fun g => ?_
  unfold Registry.onProbeOutcome
  dsimp only
  cases g.breakers.held? h with
  | none => rfl
  | some b => rfl

/-! ## In and out -/

/-- The resources that a request is bound to: one by the limiter and at most one by a breaker. Only
the rules and the names in the request decide them. -/
def bound (book : RuleBook) (i : Identity) : Set Resource :=
  {r | r = Limiter.limited book i.candidates ∨ Registry.guarded? book i.candidates = some r}

theorem footprint_breakerDenial (h : Handle Resource) (state : BreakerState) :
    HasFootprint (AgreeOn book) {h.key} fun g => (g.breakerDenial h state, g) :=
  .read fun hQ hg => by
    unfold breakerDenial
    rw [Registry.held?, Registry.held?, Roster.get?_congr (hg.breakers (hQ rfl))]

/-- The answer to a request that holds a lease, once its breaker has decided. -/
def answerLeased (lease : Lease) (now : Nat) : Verdict → Gate → Admission × Gate
  | .unrestricted, g =>
    (.permit (.tracked { lease, breaker := none, probe := false, admittedAt := now }), g)
  | .permit h probe, g =>
    (.permit (.tracked { lease, breaker := some h, probe, admittedAt := now }), g)
  | .reject h state, g =>
    (.deny (g.breakerDenial h state), { g with stats := Limiter.release g.stats lease })

/-- A request that holds a lease is decided within the resources that it is bound to. The lease may
have to go back, so its handle must lie within them as well. -/
theorem footprint_enterLeased {identity : Identity} {lease : Lease}
    (hlease : lease.series.key ∈ bound book identity) (now : Nat) (draw : Float) :
    HasFootprint (AgreeOn book) (bound book identity) fun g =>
      g.enterLeased lease identity.candidates now draw := by
  have hguarded : {r | Registry.guarded? book identity.candidates = some r} ⊆
      bound book identity := fun r hr => Or.inr hr
  have hop := ((footprint_permit book identity.candidates now draw).mono hguarded).bind_of
    (P := fun verdict => ∀ h, verdict.breaker? = some h → h.key ∈ bound book identity)
    (fun {_ _ _} _ h hv => by
      dsimp only at hv
      exact hguarded (key_of_permit hv))
    (k := answerLeased lease now) fun verdict hv => by
    cases verdict with
    | unrestricted => exact .answer _
    | permit h probe => exact .answer _
    | reject h state =>
      have hdenial := (footprint_breakerDenial book h state).within (hv h rfl)
      have hrelease := (footprint_onStats book
        (StatStore.footprint_release lease.series)).within hlease
      have hop := hdenial.bind fun denial => hrelease.bind fun _ => .answer (Admission.deny denial)
      exact hop
  refine hop.of_eq_on (fun hg => hg.books) fun g hbook => ?_
  subst hbook
  unfold enterLeased
  rcases g.breakers.permit g.book g.stats identity.candidates now draw with
    ⟨verdict, breakers, stats⟩
  cases verdict with
  | unrestricted => rfl
  | permit h probe => rfl
  | reject h state => rfl

/-- The answer to a request, once the limiter has decided. -/
def answerLimited (identity : Identity) (now : Nat) (draw : Float) :
    LimitDecision → Gate → Admission × Gate
  | .allowed lease, g => g.enterLeased lease identity.candidates now draw
  | .denied resource axis rule, g => (.deny (g.limitDenial resource axis rule), g)

/-- **A request is decided within the resources that it is bound to.** All statistics it reads and
all that it writes lie there, and so does the breaker it is put to. -/
theorem footprint_enterAt (identity : Identity) (now : Nat) (draw : Float) :
    HasFootprint (AgreeOn book) (bound book identity) fun g => g.enterAt identity now draw := by
  have hlimited : Limiter.limited book identity.candidates ∈ bound book identity := Or.inl rfl
  have hop := ((footprint_onStats book
      (Limiter.footprint_permit book identity.candidates now)).within hlimited).bind_of
    (P := fun decision => ∀ lease, decision = .allowed lease →
      lease.series.key ∈ bound book identity)
    (fun {_ g _} _ lease hl => by
      rcases hp : Limiter.permit book g.stats identity.candidates now with ⟨decision, stats⟩
      rw [onStats, hp] at hl
      cases hl
      exact Or.inl (Limiter.lease_of_allowed hp).2)
    (k := answerLimited identity now draw) fun decision hlease => by
      cases decision with
      | allowed lease => exact footprint_enterLeased book (hlease lease rfl) now draw
      | denied resource axis rule =>
        exact .read fun _ hg => by rw [limitDenial, limitDenial, hg.books.1, hg.books.2]
  refine hop.of_eq_on (fun hg => hg.books) fun g hbook => ?_
  subst hbook
  unfold enterAt onStats
  dsimp only
  rcases Limiter.permit g.book g.stats identity.candidates now with ⟨decision, stats⟩
  cases decision with
  | allowed lease => rfl
  | denied resource axis rule => rfl

/-- The outcome of a request is counted under one resource, with its latency. -/
theorem footprint_recordOutcome (r : Resource) (failed : Bool) (latency now : Nat) :
    HasFootprint StatStore.AgreeOn {r} fun s =>
      ((), recordOutcome s r failed latency now) := by
  cases failed with
  | false =>
    have hop := (footprint_incr r now .completed).bind fun _ =>
      StatStore.footprint_recordLatency r now latency
    exact hop
  | true =>
    have hop := (footprint_incr r now .completed).bind fun _ =>
      (footprint_incr r now .error).bind fun _ =>
        StatStore.footprint_recordLatency r now latency
    exact hop

end Gate

/-- The resources where the way back of a request leaves something: that of its lease, that of the
handle in the lease, and that of its breaker. A permit may come back under other rules, so it goes
by what it holds and not by what the rules say then. -/
def Tracked.held (t : Tracked) : Set Resource :=
  {r | r = t.lease.resource ∨ r = t.lease.series.key ∨ ∃ h, t.breaker = some h ∧ h.key = r}

namespace Gate

variable (book : RuleBook)

/-- The outcome is counted under the resource of the lease, and under that of the breaker if it is
another. -/
theorem footprint_counted (t : Tracked) (success : Option Bool) (now : Nat) :
    HasFootprint (AgreeOn book) t.held fun g =>
      ((), { g with stats := g.counted t success now }) := by
  have hrelease := (StatStore.footprint_release t.lease.series).within
    (show t.lease.series.key ∈ t.held from Or.inr (Or.inl rfl))
  have hlease := (footprint_recordOutcome t.lease.resource (decide (success = some false))
    (now - t.admittedAt) now).within (show t.lease.resource ∈ t.held from Or.inl rfl)
  have hreleased := hrelease.bind fun _ => hlease
  cases hbreaker : t.breaker with
  | none =>
    have hop := footprint_onStats book hreleased
    refine hop.of_eq fun g => ?_
    unfold counted onStats
    rw [hbreaker]
    rfl
  | some h =>
    have hguard := (footprint_recordOutcome h.key (decide (success = some false))
      (now - t.admittedAt) now).within
      (show h.key ∈ t.held from Or.inr (Or.inr ⟨h, hbreaker, rfl⟩))
    -- a breaker at the resource of the lease counts nothing of its own
    by_cases hsame : h.key = t.lease.resource
    · have hop := footprint_onStats book hreleased
      refine hop.of_eq fun g => ?_
      unfold counted onStats
      rw [hbreaker]
      dsimp only
      rw [if_pos hsame]
      rfl
    · have hop := footprint_onStats book (hreleased.bind fun _ => hguard)
      refine hop.of_eq fun g => ?_
      unfold counted onStats
      rw [hbreaker]
      dsimp only
      rw [if_neg hsame]
      rfl

/-- **A permit comes back within the resources that it names.** Only the outcome of a probe goes
further than the statistics, to the breaker that is waiting for it. -/
theorem footprint_finishAt (t : Tracked) (success : Option Bool) (now : Nat) :
    HasFootprint (AgreeOn book) t.held fun g => ((), g.finishAt t success now) := by
  have hcounted := footprint_counted book t success now
  cases hprobe : t.probed? with
  | none =>
    refine hcounted.of_eq fun g => ?_
    rw [finishAt_eq, hprobe]
  | some h =>
    have hheld : h.key ∈ t.held := by
      rw [Tracked.probed?] at hprobe
      split at hprobe
      · exact Or.inr (Or.inr ⟨h, hprobe, rfl⟩)
      · cases hprobe
    have hop := hcounted.bind fun _ => (footprint_onProbeOutcome book h
      (success.getD false) now).within hheld
    refine hop.of_eq fun g => ?_
    rw [finishAt_eq, hprobe]

end Gate
end Floodgate
